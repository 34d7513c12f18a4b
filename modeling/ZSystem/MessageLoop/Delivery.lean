import ZSystem.MessageLoop.Sections

set_option autoImplicit false

/-!
# Delivery

Semaphore 1 counts what the queue holds, and an abort in force counts as one request more until the
loop thread leaves its loop. So the loop thread finds the queue empty only after an abort, and the data
it hands over are those of the queue in their order.
-/

namespace ZSystem.MessageLoop

open Posix Transition

def PC.ofRun : PC -> Bool
  | .duplicate site | .op site | .dropDuplicate site =>
      match site with
      | .runAwait | .runLock | .runUnlock _ => true
      | _ => false
  | .runTake | .runRespond _ | .runFree _ | .runAfterAbort | .runDestroy | .runFreeLoop | .finished => true
  | _ => false

/-- The requests that the loop thread has got from semaphore 1 and not looked up yet. -/
def PC.tokens : PC -> Nat
  | .dropDuplicate .runAwait | .duplicate .runLock | .op .runLock | .dropDuplicate .runLock | .runTake => 1
  | _ => 0

def PC.left : PC -> Bool
  | .duplicate (.runUnlock element) | .op (.runUnlock element) | .dropDuplicate (.runUnlock element) =>
      element == 0
  | .runAfterAbort | .runDestroy | .runFreeLoop | .finished => true
  | _ => false

def PC.owing : PC -> Bool
  | .duplicate site | .op site =>
      match site with
      | .postAnnounce | .abortAnnounce => true
      | _ => false
  | _ => false

theorem PC.owing_locked {pc : PC} (owing : pc.owing = true) : pc.locked = true := by
  unfold PC.owing at owing
  split at owing
  · split at owing <;> first | rfl | cases owing
  · split at owing <;> first | rfl | cases owing
  · cases owing

/-- The loop thread has taken the element out of the queue, and `response` has not got it yet. -/
def Held (queue : Queue) (element : Nat) (addresses hand : List Nat) : Prop :=
  element ∉ addresses ∧ ∃ node, queue.elements element = some node ∧ hand = [node.data]

def Hand (queue : Queue) (addresses hand : List Nat) : PC -> Prop
  | .duplicate (.runUnlock element) | .op (.runUnlock element) | .dropDuplicate (.runUnlock element) =>
      if element = 0 then hand = [] else Held queue element addresses hand
  | .runRespond element => Held queue element addresses hand
  | .runFree element => hand = [] ∧ element ∉ addresses ∧ ∃ node, queue.elements element = some node
  | _ => hand = []

/-- What the loop thread at `pc` and semaphore 1 say about the queue. -/
structure Flow (data : Data) (requests : Nat) (pc : PC) (addresses contents hand : List Nat) : Prop where
  queue : Represents data.queue addresses contents
  order : data.enqueued.map Prod.snd = data.delivered ++ hand ++ contents
  hand : Hand data.queue addresses hand pc
  balance : requests + pc.tokens + data.owed.toNat =
    contents.length + (data.aborting && !pc.left).toNat
  left : pc.left = true -> contents = [] ∧ data.aborting = true

structure Flowing (state : State) : Prop where
  sectioned : Sectioned state
  placed : ∀ thread pc, state.status thread = .running pc -> (pc.ofRun = true ↔ thread = .run)
  owing : state.data.owed = true ↔ ∃ thread pc, state.status thread = .running pc ∧ pc.owing = true
  flow : ∃ pc addresses contents hand, state.status .run = .running pc ∧
    Flow state.data (state.value .requests) pc addresses contents hand

section Moves

variable {data after : Data} {thread : ThreadId} {pc place origin : PC} {value values : Sem -> Nat}
  {addresses contents hand : List Nat} {requests : Nat}

theorem Move.ofRun (move : Move thread data value pc place after values) : place.ofRun = pc.ofRun := by
  cases move with
  | call called => obtain ⟨posted, rfl⟩ | rfl := called <;> rfl
  | @drop site =>
      cases site <;> simp only [Site.next, PC.ofRun]
      split_ifs <;> rfl
  | _ => rfl

theorem Flow.of_eq (flow : Flow data requests pc addresses contents hand)
    (queue : after.queue = data.queue) (enqueued : after.enqueued = data.enqueued)
    (delivered : after.delivered = data.delivered) (owed : after.owed = data.owed)
    (aborting : after.aborting = data.aborting) : Flow after requests pc addresses contents hand := by
  constructor <;> simp only [queue, enqueued, delivered, owed, aborting]
  exacts [flow.queue, flow.order, flow.hand, flow.balance, flow.left]

theorem Hand.insert {queue inserted : Queue} {address posted : Nat} (held : Hand queue addresses hand pc)
    (represents : Represents queue addresses contents)
    (done : queue.insert address posted = some inserted) :
    Hand inserted (addresses ++ [address]) hand pc := by
  have keeps {element : Nat} (mine : Held queue element addresses hand) :
      Held inserted element (addresses ++ [address]) hand := by
    obtain ⟨outside, node, read, content⟩ := mine
    obtain ⟨still, same⟩ := represents.insert_keeps done outside read
    exact ⟨still, node, same, content⟩
  unfold Hand at held ⊢
  split at held
  case h_5 element =>
    obtain ⟨nothing, outside, node, read⟩ := held
    obtain ⟨still, same⟩ := represents.insert_keeps done outside read
    exact ⟨nothing, still, node, same⟩
  case h_4 element => exact keeps held
  case h_6 => exact held
  all_goals
    split_ifs at held ⊢
    · exact held
    · exact keeps held

theorem Flow.insert (flow : Flow data requests pc addresses contents hand) {queue : Queue}
    {address posted : Nat} (inserted : data.queue.insert address posted = some queue)
    (accepting : data.aborting = false) (paid : data.owed = false) :
    Flow (data.enqueue thread posted queue) requests pc (addresses ++ [address]) (contents ++ [posted])
      hand where
  queue := flow.queue.insert inserted
  order := by simp [Data.enqueue, flow.order]
  hand := flow.hand.insert flow.queue inserted
  balance := by
    have balance := flow.balance
    simp only [paid, accepting, Bool.false_and, Bool.toNat_false] at balance
    simp only [Data.enqueue, accepting, Bool.false_and, Bool.toNat_false, Bool.toNat_true,
      List.length_append, List.length_singleton]
    omega
  left gone := by
    have aborting := (flow.left gone).2
    simp [accepting] at aborting

theorem Flow.abort (flow : Flow data requests pc addresses contents hand)
    (accepting : data.aborting = false) (paid : data.owed = false) :
    Flow { data with aborting := true, owed := true } requests pc addresses contents hand where
  queue := flow.queue
  order := flow.order
  hand := flow.hand
  balance := by
    have inside : pc.left = false := by
      by_contra gone
      have aborting := (flow.left (by simpa using gone)).2
      simp [accepting] at aborting
    have balance := flow.balance
    simp only [paid, accepting, Bool.false_and, Bool.toNat_false] at balance
    simp only [inside, Bool.not_false, Bool.and_true, Bool.toNat_true]
    omega
  left gone := ⟨(flow.left gone).1, rfl⟩

theorem Flow.announce (flow : Flow data requests pc addresses contents hand) (owed : data.owed = true) :
    Flow { data with owed := false } (requests + 1) pc addresses contents hand where
  queue := flow.queue
  order := flow.order
  hand := flow.hand
  balance := by
    have balance := flow.balance
    simp only [owed, Bool.toNat_true] at balance
    simp only [Bool.toNat_false]
    omega
  left := flow.left

theorem Flow.client (flow : Flow data (value .requests) pc addresses contents hand)
    (move : Move thread data value origin place after values) (other : origin.ofRun = false)
    (known : Place data thread origin) (owed : origin.locked = true -> data.owed = origin.owing) :
    ∃ addresses contents, Flow after (values .requests) pc addresses contents hand := by
  cases move with
  | call | refuse | accept | again => exact ⟨_, _, flow⟩
  | duplicate present => exact ⟨_, _, flow.of_eq rfl rfl rfl rfl rfl⟩
  | @acquire site down free =>
      cases site with
      | postLock posted | abortLock => exact ⟨_, _, flow.of_eq rfl rfl rfl rfl rfl⟩
      | runAwait | runLock => cases other
      | _ => cases down
  | @release site up =>
      cases site with
      | postAnnounce | abortAnnounce => exact ⟨_, _, flow.announce (owed rfl)⟩
      | postUnlock back | abortUnlock => exact ⟨_, _, flow⟩
      | runUnlock element => cases other
      | _ => cases up
  | @drop site => cases site <;> exact ⟨_, _, flow.of_eq rfl rfl rfl rfl rfl⟩
  | insert inserted => exact ⟨_, _, flow.insert inserted known.2 (owed rfl)⟩
  | abort accepting => exact ⟨_, _, flow.abort accepting (owed rfl)⟩
  | _ => cases other

theorem Flow.take (flow : Flow data requests .runTake addresses contents hand) {queue : Queue}
    {element : Nat} (removed : data.queue.remove = some (queue, element)) :
    ∃ addresses contents hand, Flow { data with queue := queue } requests
      (.duplicate (.runUnlock element)) addresses contents hand := by
  have empty : hand = [] := flow.hand
  subst empty
  have balance := flow.balance
  simp only [PC.tokens, PC.left, Bool.not_false, Bool.and_true] at balance
  rcases flow.queue.remove removed with ⟨rfl, rfl, rfl⟩ |
    ⟨rest, posted, waiting, node, rfl, rfl, valid, outside, memory, read, content, remaining⟩
  · -- No data for the request: it comes from an abort.
    have aborting : data.aborting = true := by
      by_contra accepting
      rw [Bool.not_eq_true] at accepting
      simp only [accepting, Bool.toNat_false, List.length_nil] at balance
      omega
    refine ⟨addresses, [], [], flow.queue, flow.order, rfl, ?_, fun _ => ⟨rfl, aborting⟩⟩
    simp only [aborting, Bool.toNat_true, List.length_nil] at balance
    simp only [PC.tokens, PC.left, beq_self_eq_true, Bool.not_true, Bool.and_false, Bool.toNat_false,
      List.length_nil]
    omega
  · refine ⟨rest, waiting, [posted], remaining, by simpa using flow.order, ?_, ?_, ?_⟩
    · simp only [Hand, valid, if_false]
      exact ⟨outside, node, by rw [memory, read], by rw [content]⟩
    · simp only [List.length_cons] at balance
      simp only [PC.tokens, PC.left, beq_eq_false_iff_ne.mpr valid, Bool.not_false, Bool.and_true]
      omega
    · simp [PC.left, valid]

/-- The loop thread goes on with what it has in its hand; semaphore 1 and its request make up the same. -/
theorem Flow.goOn (flow : Flow data requests pc addresses contents hand) {more : Nat}
    (keeps : Hand data.queue addresses hand pc -> Hand data.queue addresses hand place)
    (tokens : more + place.tokens = requests + pc.tokens) (left : place.left = pc.left) :
    Flow data more place addresses contents hand :=
  ⟨flow.queue, flow.order, keeps flow.hand, by rw [tokens, left, flow.balance], left ▸ flow.left⟩

theorem Flow.run (flow : Flow data (value .requests) pc addresses contents hand)
    (move : Move thread data value pc place after values) (mine : pc.ofRun = true) :
    ∃ addresses contents hand, Flow after (values .requests) place addresses contents hand := by
  cases move with
  | @duplicate site present =>
      have same : Flow (data.duplicate thread) _ _ _ _ _ := flow.of_eq rfl rfl rfl rfl rfl
      cases site with
      | runAwait | runLock | runUnlock element => exact ⟨_, _, _, same.goOn id rfl rfl⟩
      | _ => cases mine
  | @acquire site down free =>
      cases site with
      | runLock => exact ⟨_, _, _, flow.goOn id rfl rfl⟩
      | runAwait =>
          refine ⟨_, _, _, flow.goOn id ?_ rfl⟩
          simp only [Site.sem, Function.update_self, PC.tokens]
          exact Nat.sub_add_cancel free
      | postLock | abortLock => cases mine
      | _ => cases down
  | @release site up =>
      cases site with
      | runUnlock element => exact ⟨_, _, _, flow.goOn id rfl rfl⟩
      | runAwait | runLock => cases up
      | _ => cases mine
  | @drop site =>
      have same : Flow (data.drop thread) _ _ _ _ _ := flow.of_eq rfl rfl rfl rfl rfl
      cases site with
      | runAwait | runLock => exact ⟨_, _, _, same.goOn id rfl rfl⟩
      | runUnlock element =>
          simp only [Site.next]
          split_ifs with null
          · subst null
            exact ⟨_, _, _, same.goOn id rfl rfl⟩
          · exact ⟨_, _, _, same.goOn (by simp [Hand, null]) rfl (by simp [PC.left, null])⟩
      | _ => cases mine
  | take removed => exact flow.take removed
  | @respond element node read =>
      obtain ⟨outside, present, read', rfl⟩ := flow.hand
      obtain rfl : node = present := Option.some.inj (read.symm.trans read')
      exact ⟨_, _, [], flow.queue, by simpa using flow.order, ⟨rfl, outside, node, read⟩, flow.balance,
        flow.left⟩
  | @free element =>
      obtain ⟨rfl, outside, -⟩ := flow.hand
      exact ⟨_, _, [], flow.queue.free outside, flow.order, rfl, flow.balance, flow.left⟩
  | afterAbort => exact ⟨_, _, _, flow.goOn id rfl rfl⟩
  | destroy =>
      exact ⟨_, _, _, (flow.goOn id rfl rfl : Flow data _ .runFreeLoop _ _ _).of_eq rfl rfl rfl rfl rfl⟩
  | freeLoop =>
      exact ⟨_, _, _, (flow.goOn id rfl rfl : Flow data _ .finished _ _ _).of_eq rfl rfl rfl rfl rfl⟩
  | _ => cases mine

end Moves

section Steps

variable {state next : State} {action : Action} {thread : ThreadId} {pc place : PC}

theorem Flowing.owed (flowing : Flowing state) (here : state.status thread = .running pc)
    (locked : pc.locked = true) : state.data.owed = pc.owing := by
  rw [Bool.eq_iff_iff, flowing.owing]
  constructor
  · rintro ⟨other, place, there, owing⟩
    obtain rfl := flowing.sectioned.lock.alone other thread _ _ there here (PC.owing_locked owing) locked
    cases here.symm.trans there
    exact owing
  · exact fun owing => ⟨thread, pc, here, owing⟩

theorem Move.owing {data after : Data} {value values : Sem -> Nat}
    (move : Move thread data value pc place after values) :
    (after.owed = data.owed ∧ place.owing = pc.owing) ∨
      (pc.locked = true ∧ after.owed = place.owing) := by
  cases move with
  | call called => obtain ⟨posted, rfl⟩ | rfl := called <;> exact Or.inl ⟨rfl, rfl⟩
  | @duplicate site present => cases site <;> exact Or.inl ⟨rfl, rfl⟩
  | @acquire site down free =>
      cases site with
      | postAnnounce | abortAnnounce => cases down
      | _ => exact Or.inl ⟨rfl, rfl⟩
  | @release site up =>
      cases site with
      | postAnnounce | abortAnnounce => exact Or.inr ⟨rfl, rfl⟩
      | _ => exact Or.inl ⟨rfl, rfl⟩
  | @drop site =>
      cases site with
      | runUnlock element =>
          refine Or.inl ⟨rfl, ?_⟩
          simp only [Site.next]
          split_ifs <;> rfl
      | _ => exact Or.inl ⟨rfl, rfl⟩
  | insert | abort => exact Or.inr ⟨rfl, rfl⟩
  | _ => exact Or.inl ⟨rfl, rfl⟩

theorem Flowing.owing_move (flowing : Flowing state) (here : state.status thread = .running pc)
    (moved : next.status = Function.update state.status thread (.running place))
    {values : Sem -> Nat} (move : Move thread state.data state.value pc place next.data values) :
    next.data.owed = true ↔ ∃ thread pc, next.status thread = .running pc ∧ pc.owing = true := by
  have elsewhere {other : ThreadId} (differ : other ≠ thread) :
      next.status other = state.status other := by simp [moved, differ]
  have mine : next.status thread = .running place := by simp [moved]
  rcases move.owing with ⟨owed, owing⟩ | ⟨locked, owed⟩
  · rw [owed, flowing.owing]
    constructor
    · rintro ⟨other, pc', there, owes⟩
      by_cases same : other = thread
      · subst same
        cases here.symm.trans there
        exact ⟨other, place, mine, owing.trans owes⟩
      · exact ⟨other, pc', (elsewhere same).trans there, owes⟩
    · rintro ⟨other, pc', there, owes⟩
      by_cases same : other = thread
      · subst same
        cases mine.symm.trans there
        exact ⟨other, pc, here, owing ▸ owes⟩
      · exact ⟨other, pc', (elsewhere same).symm.trans there, owes⟩
  · rw [owed]
    constructor
    · exact fun owes => ⟨thread, place, mine, owes⟩
    · rintro ⟨other, pc', there, owes⟩
      -- Another thread that owes something would hold semaphore 0 too.
      by_cases same : other = thread
      · subst same
        cases mine.symm.trans there
        exact owes
      · have also := (elsewhere same).symm.trans there
        exact absurd (flowing.sectioned.lock.alone other thread _ _ also here (PC.owing_locked owes) locked)
          same

theorem Flowing.preserved (flowing : Flowing state) (taken : step state action = some next) :
    Flowing next := by
  have sectioned := flowing.sectioned
  obtain ⟨pc, place, here, moved, move⟩ := step_move sectioned.all taken
  have placed := flowing.placed _ pc here
  refine ⟨sectioned.preserved taken, fun thread pc' there => ?_, flowing.owing_move here moved move, ?_⟩
  · rw [moved] at there
    by_cases same : thread = action.actor
    · subst same
      simp only [Function.update_self, Status.running.injEq] at there
      rw [← there, move.ofRun, placed]
    · exact flowing.placed thread pc' (by simpa [same] using there)
  · obtain ⟨runs, addresses, contents, hand, at', flow⟩ := flowing.flow
    by_cases mine : action.actor = .run
    · rw [mine] at here moved move placed
      cases here.symm.trans at'
      obtain ⟨addresses, contents, hand, flow⟩ := flow.run move (placed.mpr rfl)
      exact ⟨place, addresses, contents, hand, by simp [moved], flow⟩
    · obtain ⟨addresses, contents, flow⟩ := flow.client move
        (by simpa using fun ofRun => mine (placed.mp ofRun)) (sectioned.outline _ pc here)
        (flowing.owed here)
      exact ⟨runs, addresses, contents, hand, by simp [moved, Ne.symm mine, at'], flow⟩

theorem initial_flowing : Flowing initial where
  sectioned := initial_sectioned
  placed thread pc there := by cases thread <;> cases there <;> simp [PC.ofRun]
  owing := by
    refine ⟨by simp [initial], ?_⟩
    rintro ⟨thread, pc, there, owing⟩
    cases thread <;> cases there <;> cases owing
  flow := ⟨_, [], [], [], rfl, represents_empty, rfl, rfl, rfl, by simp [PC.left]⟩

theorem flowing_of_reach {allowed : State -> Action -> Prop}
    (reached : Reach step allowed initial state) : Flowing state :=
  reached.invariant Flowing initial_flowing fun _ _ _ flowing _ taken => flowing.preserved taken

/--
What the loop hands to `response`, what the posts return and when the loop ends. A number names a
section: the sections are numbered in the order in which they held semaphore 0.
-/
structure Delivers (state : State) : Prop where
  delivered : state.data.delivered <+: state.data.enqueued.map Prod.snd
  ordered : (state.data.enqueued.map Prod.fst).Pairwise (· < ·)
  enqueued : ∀ entry ∈ state.data.enqueued, ∃ thread,
    state.data.sections[entry.1]? = some (thread, .post entry.2)
  returned : ∀ entry ∈ state.data.returned,
    (∃ thread posted, state.data.sections[entry.1]? = some (thread, .post posted)) ∧
      (entry.2 = true ↔ entry.1 ∈ state.data.enqueued.map Prod.fst)
  late : ∀ index, HasAbort (state.data.sections.take index) ->
    index ∉ state.data.enqueued.map Prod.fst ∧ (index, true) ∉ state.data.returned
  left : ∀ pc, state.status .run = .running pc -> pc.left = true ->
    HasAbort state.data.sections ∧ state.data.delivered = state.data.enqueued.map Prod.snd

theorem Hand.left {queue : Queue} {addresses hand : List Nat} (held : Hand queue addresses hand pc)
    (left : pc.left = true) : hand = [] := by
  unfold PC.left at left
  split at left
  case h_1 | h_2 | h_3 =>
    obtain rfl := beq_iff_eq.mp left
    exact held
  all_goals first | exact held | cases left

theorem delivers (reached : Reachable step initial state) : Delivers state := by
  have flowing := flowing_of_reach reached
  have log := flowing.sectioned.log
  obtain ⟨runs, addresses, contents, hand, here, flow⟩ := flowing.flow
  have late (index : Nat) (abort : HasAbort (state.data.sections.take index)) :
      index ∉ state.data.enqueued.map Prod.fst := fun member => by
    obtain ⟨entry, listed, rfl⟩ := List.mem_map.mp member
    exact (log.accepted entry listed).2 abort
  refine ⟨?_, log.ordered, fun entry member => (log.accepted entry member).1, log.returned,
    fun index abort => ⟨late index abort, fun member => ?_⟩, fun pc there left => ?_⟩
  · rw [flow.order, List.append_assoc]
    exact List.prefix_append _ _
  · exact late index abort ((log.returned _ member).2.mp rfl)
  · cases here.symm.trans there
    obtain ⟨empty, aborting⟩ := flow.left left
    refine ⟨log.aborted aborting, ?_⟩
    rw [flow.order, flow.hand.left left, empty, List.append_nil, List.append_nil]

def runs (thread : ThreadId) (count : Nat) : List Action := List.replicate count (.run thread 1)

/-- A post is delivered, then an abort overtakes another post, which returns 0. -/
def abortBetweenPosts : List Action :=
  .call (.client 0) (.duplicate (.postLock 7)) :: runs (.client 0) 11 ++ runs .run 12 ++
    .call (.client 1) (.duplicate .abortLock) :: runs (.client 1) 10 ++
    .call (.client 0) (.duplicate (.postLock 8)) :: runs (.client 0) 7 ++ runs .run 10

theorem delivers_abortBetweenPosts :
    ∃ final, exec step initial abortBetweenPosts = some final ∧
      final.data.delivered = [7] ∧ final.data.returned = [(0, true), (2, false)] ∧
      final.status .run = .running .runAfterAbort ∧ Delivers final := by
  have reached : (exec step initial abortBetweenPosts).map (fun final =>
      (final.data.delivered, final.data.returned, final.status .run)) =
      some ([7], [(0, true), (2, false)], .running .runAfterAbort) := by decide
  obtain ⟨final, run, parts⟩ := Option.map_eq_some_iff.mp reached
  simp only [Prod.mk.injEq] at parts
  exact ⟨final, run, parts.1, parts.2.1, parts.2.2, delivers (reachable_of_exec _ run)⟩

end Steps

end ZSystem.MessageLoop
