import ZSystem.MessageLoop.Program

set_option autoImplicit false

/-!
# The sections of a message loop

What the stretches of code between the two operations on semaphore 0 leave behind, in the order in
which they got the semaphore: which posts put their data into the queue and what they return.
-/

namespace ZSystem.MessageLoop

open Posix Transition

/-! ## Semaphore 0 is a lock -/

def Site.inside : Site -> Bool
  | .postAnnounce | .postUnlock _ | .abortAnnounce | .abortUnlock | .runUnlock _ => true
  | _ => false

def Site.holding : Site -> Bool
  | .postLock _ | .postAnnounce | .abortLock | .abortAnnounce | .runLock => true
  | _ => false

def PC.locked : PC -> Bool
  | .duplicate site | .op site => site.inside
  | .dropDuplicate site => site.holding
  | .postTest _ | .postInsert _ | .abortTest | .runTake => true
  | _ => false

theorem queue_brackets : Brackets program .queue (fun _ pc => pc.locked = true) where
  instr thread pc := by
    cases pc with
    | op site => cases site <;> simp [program, code, Site.down, Site.sem, Brackets.Respects, PC.locked,
        Site.inside, Site.holding]
    | dropDuplicate site =>
        rintro pick data result place ⟨⟩
        cases site <;> simp only [Site.next, PC.locked, Site.inside, Site.holding]
        split_ifs <;> simp
    | caller | finished => trivial
    | duplicate site =>
        intro pick data result place effective
        simp only [Option.ite_none_left_eq_some, Option.some.injEq, Prod.mk.injEq] at effective
        obtain ⟨-, -, rfl⟩ := effective
        rfl
    | postTest posted =>
        intro pick data result place effective
        simp only [Option.ite_none_left_eq_some, Option.some.injEq, Prod.mk.injEq] at effective
        obtain ⟨-, -, rfl⟩ := effective
        split_ifs <;> rfl
    | abortTest =>
        intro pick data result place effective
        simp only [Option.ite_none_left_eq_some, Option.some.injEq] at effective
        obtain ⟨-, split⟩ := effective
        split_ifs at split <;> cases split <;> rfl
    | runAfterAbort | runDestroy =>
        intro pick data result place effective
        simp only [Option.ite_none_left_eq_some, Option.some.injEq, Prod.mk.injEq] at effective
        obtain ⟨-, -, rfl⟩ := effective
        rfl
    | postInsert _ | runTake | runRespond _ =>
        intro pick data result place effective
        simp only [Option.ite_none_left_eq_some, Option.map_eq_some_iff, Prod.mk.injEq] at effective
        obtain ⟨-, _, -, -, rfl⟩ := effective
        rfl
    | runFree _ | runFreeLoop =>
        rintro pick data result place ⟨⟩
        rfl
  call thread pc place data result chosen := by
    change calls thread pc place data = some result at chosen
    obtain ⟨rfl, -, -, site, rfl, ⟨posted, rfl⟩ | rfl⟩ := calls_cases chosen <;> simp [PC.locked, Site.inside]
  handler thread place handled := by simp [program] at handled
  interruptible thread pc point := by simp [program] at point

/-! ## What a thread knows at its place -/

/-- The thread has the latest section, a post that is not decided yet. -/
structure Fresh (data : Data) (thread : ThreadId) (posted : Nat) : Prop where
  last : data.current thread + 1 = data.sections.length
  mine : data.sections[data.current thread]? = some (thread, .post posted)
  new : data.current thread ∉ data.enqueued.map Prod.fst
  unanswered : data.current thread ∉ data.returned.map Prod.fst

/-- The thread's section is a post that is going to return `back`. -/
structure Decided (data : Data) (thread : ThreadId) (back : Bool) : Prop where
  mine : ∃ posted, data.sections[data.current thread]? = some (thread, .post posted)
  accepted : back = true ↔ data.current thread ∈ data.enqueued.map Prod.fst
  unanswered : data.current thread ∉ data.returned.map Prod.fst

def Site.Before (data : Data) (thread : ThreadId) : Site -> Prop
  | .postAnnounce => Decided data thread true
  | .postUnlock back => Decided data thread back
  | _ => True

def Site.After (data : Data) (thread : ThreadId) : Site -> Prop
  | .postLock posted => Fresh data thread posted
  | .postAnnounce => Decided data thread true
  | .postUnlock back => Decided data thread back
  | .abortLock => (thread, .abort) ∈ data.sections
  | _ => True

def Place (data : Data) (thread : ThreadId) : PC -> Prop
  | .duplicate site | .op site => site.Before data thread
  | .dropDuplicate site => site.After data thread
  | .postTest posted => Fresh data thread posted
  | .postInsert posted => Fresh data thread posted ∧ data.aborting = false
  | .abortTest => (thread, .abort) ∈ data.sections
  | _ => True

def HasAbort (sections : List (ThreadId × Section)) : Prop := ∃ thread, (thread, .abort) ∈ sections

structure Log (data : Data) : Prop where
  ordered : (data.enqueued.map Prod.fst).Pairwise (· < ·)
  accepted : ∀ entry ∈ data.enqueued,
    (∃ thread, data.sections[entry.1]? = some (thread, .post entry.2)) ∧
      ¬ HasAbort (data.sections.take entry.1)
  returned : ∀ entry ∈ data.returned,
    (∃ thread posted, data.sections[entry.1]? = some (thread, .post posted)) ∧
      (entry.2 = true ↔ entry.1 ∈ data.enqueued.map Prod.fst)
  aborted : data.aborting = true -> HasAbort data.sections

/-- The thread is in a section of `zs__messageloop_abort` that has not set `aborting` yet. -/
def PC.closing : PC -> Bool
  | .dropDuplicate .abortLock | .abortTest => true
  | _ => false

structure Sectioned (state : State) : Prop where
  all : AllRunning state
  lock : Bracketed (fun _ pc => pc.locked = true) (state.value .queue) state.status
  log : Log state.data
  closing : HasAbort state.data.sections -> state.data.aborting = true ∨
    ∃ thread pc, state.status thread = .running pc ∧ pc.closing = true
  outline : ∀ thread pc, state.status thread = .running pc -> Place state.data thread pc

/-! ## Frames -/

/-- What a move of another thread leaves to a thread. -/
structure Frame (thread : ThreadId) (data after : Data) : Prop where
  current : after.current thread = data.current thread
  sections : data.sections <+: after.sections
  enqueued : ∀ index stretch, data.sections[index]? = some (thread, stretch) ->
    (index ∈ after.enqueued.map Prod.fst ↔ index ∈ data.enqueued.map Prod.fst)
  returned : ∀ index stretch, data.sections[index]? = some (thread, stretch) ->
    (index ∈ after.returned.map Prod.fst ↔ index ∈ data.returned.map Prod.fst)

section Stable

variable {data after : Data} {thread : ThreadId} {pc place : PC} {value values : Sem -> Nat}

theorem getElem_of_prefix {α : Type} {before later : List α} (longer : before <+: later) {index : Nat}
    {entry : α} (read : before[index]? = some entry) : later[index]? = some entry := by
  obtain ⟨more, rfl⟩ := longer
  obtain ⟨within, -⟩ := List.getElem?_eq_some_iff.mp read
  rw [List.getElem?_append_left within, read]

theorem Decided.stable {back : Bool} (decided : Decided data thread back)
    (frame : Frame thread data after) : Decided after thread back := by
  obtain ⟨posted, mine⟩ := decided.mine
  refine ⟨⟨posted, ?_⟩, ?_, ?_⟩ <;> rw [frame.current]
  · exact getElem_of_prefix frame.sections mine
  · rw [frame.enqueued _ _ mine]
    exact decided.accepted
  · rw [frame.returned _ _ mine]
    exact decided.unanswered

theorem Fresh.stable {posted : Nat} (fresh : Fresh data thread posted)
    (frame : Frame thread data after) (same : after.sections = data.sections) :
    Fresh after thread posted := by
  have mine := fresh.mine
  refine ⟨?_, ?_, ?_, ?_⟩ <;> rw [frame.current]
  · rw [same]
    exact fresh.last
  · rw [same]
    exact mine
  · rw [frame.enqueued _ _ mine]
    exact fresh.new
  · rw [frame.returned _ _ mine]
    exact fresh.unanswered

theorem Place.stable (known : Place data thread pc) (frame : Frame thread data after)
    (quiet : pc.locked = true -> after.sections = data.sections ∧ after.aborting = data.aborting) :
    Place after thread pc := by
  cases pc with
  | duplicate site | op site =>
      cases site with
      | postAnnounce | postUnlock back => exact Decided.stable known frame
      | _ => trivial
  | dropDuplicate site =>
      cases site with
      | postLock posted => exact Fresh.stable known frame (quiet rfl).1
      | postAnnounce | postUnlock back => exact Decided.stable known frame
      | abortLock => exact frame.sections.subset known
      | _ => trivial
  | postTest posted => exact Fresh.stable known frame (quiet rfl).1
  | postInsert posted =>
      exact ⟨known.1.stable frame (quiet rfl).1, (quiet rfl).2.trans known.2⟩
  | abortTest => exact frame.sections.subset known
  | _ => trivial

/-- A thread that does not hold semaphore 0 and cannot get it changes nothing that it protects. -/
theorem Move.quiet (move : Move thread data value pc place after values)
    (outside : pc.locked = false) (held : value .queue = 0) :
    after.sections = data.sections ∧ after.aborting = data.aborting := by
  cases move with
  | @acquire site down free =>
      cases site with
      | postLock posted | abortLock =>
          have none : 0 < value .queue := free
          omega
      | _ => exact ⟨rfl, rfl⟩
  | @release site up =>
      cases site with
      | postLock | abortLock => cases up
      | _ => exact ⟨rfl, rfl⟩
  | @drop site => cases site <;> exact ⟨rfl, rfl⟩
  | abort => cases outside
  | _ => exact ⟨rfl, rfl⟩

theorem Frame.append_section {other : ThreadId} (different : other ≠ thread) (stretch : Section) :
    Frame other data (data.begin thread stretch) :=
  ⟨by simp [Data.begin, different], List.prefix_append _ _, fun _ _ _ => .rfl, fun _ _ _ => .rfl⟩

theorem Frame.of_eq {other : ThreadId} (current : after.current = data.current)
    (sections : after.sections = data.sections) (enqueued : after.enqueued = data.enqueued)
    (returned : after.returned = data.returned) : Frame other data after :=
  ⟨by rw [current], by rw [sections], fun _ _ _ => by rw [enqueued], fun _ _ _ => by rw [returned]⟩

theorem Move.frame (move : Move thread data value pc place after values)
    (known : Place data thread pc) {other : ThreadId} (different : other ≠ thread) :
    Frame other data after := by
  -- A section belongs to one thread.
  have apart {index : Nat} {mine theirs : Section} (read : data.sections[index]? = some (other, theirs))
      (own : data.sections[data.current thread]? = some (thread, mine)) : index ≠ data.current thread := by
    rintro rfl
    simp only [read, Option.some.injEq, Prod.mk.injEq] at own
    exact different own.1
  cases move with
  | @acquire site down free =>
      cases site with
      | postLock posted => exact .append_section different (.post posted)
      | abortLock => exact .append_section different .abort
      | _ => exact .of_eq rfl rfl rfl rfl
  | @release site up =>
      cases site <;> first | exact .of_eq rfl rfl rfl rfl | simp [Site.down] at up
  | @drop site =>
      cases site with
      | postUnlock back =>
          obtain ⟨posted, mine⟩ := Decided.mine known
          refine ⟨rfl, List.prefix_rfl, fun _ _ _ => .rfl, fun index stretch read => ?_⟩
          simp [Site.returned, Data.drop, Data.release, apart read mine]
      | _ => exact .of_eq rfl rfl rfl rfl
  | insert inserted =>
      refine ⟨rfl, List.prefix_rfl, fun index stretch read => ?_, fun _ _ _ => .rfl⟩
      simp [Data.enqueue, apart read known.1.mine]
  | _ => exact .of_eq rfl rfl rfl rfl

end Stable

/-! ## Steps -/

section Steps

variable {data after : Data} {thread : ThreadId} {pc place : PC} {value values : Sem -> Nat}
  {state next : State} {action : Action}

theorem Log.within (log : Log data) {index : Nat} (member : index ∈ data.enqueued.map Prod.fst) :
    index < data.sections.length := by
  obtain ⟨entry, listed, rfl⟩ := List.mem_map.mp member
  obtain ⟨⟨_, read⟩, -⟩ := log.accepted entry listed
  exact (List.getElem?_eq_some_iff.mp read).1

theorem Log.answered (log : Log data) {index : Nat} (member : index ∈ data.returned.map Prod.fst) :
    index < data.sections.length := by
  obtain ⟨entry, listed, rfl⟩ := List.mem_map.mp member
  obtain ⟨⟨_, _, read⟩, -⟩ := log.returned entry listed
  exact (List.getElem?_eq_some_iff.mp read).1

theorem Log.fresh (log : Log data) (posted : Nat) :
    Fresh (data.begin thread (.post posted)) thread posted where
  last := by simp [Data.begin]
  mine := by simp [Data.begin]
  new member := by
    simp only [Data.begin, Function.update_self] at member
    exact absurd (log.within member) (lt_irrefl _)
  unanswered member := by
    simp only [Data.begin, Function.update_self] at member
    exact absurd (log.answered member) (lt_irrefl _)

theorem Move.arrives (move : Move thread data value pc place after values) (log : Log data)
    (known : Place data thread pc) : Place after thread place := by
  cases move with
  | call called present => obtain ⟨posted, rfl⟩ | rfl := called <;> trivial
  | @duplicate site present =>
      have frame : Frame thread data (data.duplicate thread) := .of_eq rfl rfl rfl rfl
      cases site with
      | postAnnounce | postUnlock back => exact Decided.stable known frame
      | _ => trivial
  | @acquire site down free =>
      cases site with
      | postLock posted => exact log.fresh posted
      | abortLock => simp [Place, Site.After, Site.performed, Data.begin]
      | postAnnounce | postUnlock back => cases down
      | _ => trivial
  | @release site up =>
      cases site with
      | postAnnounce => exact Decided.stable known (.of_eq rfl rfl rfl rfl)
      | postUnlock back => exact known
      | postLock | abortLock => cases up
      | _ => trivial
  | @drop site =>
      have frame : Frame thread data (data.drop thread) := .of_eq rfl rfl rfl rfl
      cases site with
      | postLock posted => exact Fresh.stable known frame rfl
      | postAnnounce => exact Decided.stable known frame
      | abortLock => exact known
      | runUnlock element =>
          simp only [Site.next]
          split_ifs <;> trivial
      | _ => trivial
  | refuse aborting => exact ⟨⟨_, known.mine⟩, by simpa using known.new, known.unanswered⟩
  | accept accepting => exact ⟨known, accepting⟩
  | insert inserted =>
      exact ⟨⟨_, known.1.mine⟩, by simp [Data.enqueue], known.1.unanswered⟩
  | _ => trivial

theorem Log.append_section (log : Log data) (stretch : Section) : Log (data.begin thread stretch) where
  ordered := log.ordered
  accepted entry member := by
    obtain ⟨⟨owner, read⟩, early⟩ := log.accepted entry member
    have within := (List.getElem?_eq_some_iff.mp read).1
    exact ⟨⟨owner, getElem_of_prefix (List.prefix_append _ _) read⟩, by
      simpa [Data.begin, List.take_append_of_le_length within.le] using early⟩
  returned entry member := by
    obtain ⟨⟨owner, posted, read⟩, accepted⟩ := log.returned entry member
    exact ⟨⟨owner, posted, getElem_of_prefix (List.prefix_append _ _) read⟩, accepted⟩
  aborted aborting := by
    obtain ⟨owner, member⟩ := log.aborted aborting
    exact ⟨owner, List.mem_append_left _ member⟩

theorem Log.of_eq (log : Log data) (sections : after.sections = data.sections)
    (enqueued : after.enqueued = data.enqueued) (returned : after.returned = data.returned)
    (aborting : after.aborting = data.aborting) : Log after := by
  constructor <;> simp only [sections, enqueued, returned, aborting]
  exacts [log.ordered, log.accepted, log.returned, log.aborted]

theorem Log.insert (log : Log data) {posted : Nat} (fresh : Fresh data thread posted)
    (early : ¬ HasAbort data.sections) (queue : Queue) : Log (data.enqueue thread posted queue) where
  ordered := by
    simp only [Data.enqueue, List.map_append, List.map_cons, List.map_nil]
    refine List.pairwise_append.mpr ⟨log.ordered, List.pairwise_singleton _ _, fun index member own at' => ?_⟩
    rw [List.mem_singleton.mp at']
    have within := log.within member
    have differ : index ≠ data.current thread := fun same => fresh.new (same ▸ member)
    have last := fresh.last
    omega
  accepted entry member := by
    rcases List.mem_append.mp member with old | new
    · exact log.accepted entry old
    · obtain rfl := List.mem_singleton.mp new
      exact ⟨⟨thread, fresh.mine⟩, fun ⟨owner, listed⟩ => early ⟨owner, List.mem_of_mem_take listed⟩⟩
  returned entry member := by
    obtain ⟨post, accepted⟩ := log.returned entry member
    have differ : entry.1 ≠ data.current thread := fun same =>
      fresh.unanswered (same ▸ List.mem_map_of_mem member)
    exact ⟨post, by simpa [Data.enqueue, differ] using accepted⟩
  aborted := log.aborted

theorem Log.answer (log : Log data) {back : Bool} (decided : Decided data thread back) :
    Log { data with returned := data.returned ++ [(data.current thread, back)] } where
  ordered := log.ordered
  accepted := log.accepted
  returned entry member := by
    rcases List.mem_append.mp member with old | new
    · exact log.returned entry old
    · obtain rfl := List.mem_singleton.mp new
      obtain ⟨posted, mine⟩ := decided.mine
      exact ⟨⟨thread, posted, mine⟩, decided.accepted⟩
  aborted := log.aborted

theorem Sectioned.early (sectioned : Sectioned state) {posted : Nat}
    (here : state.status thread = .running (.postInsert posted)) : ¬ HasAbort state.data.sections := by
  intro abort
  have accepting : state.data.aborting = false := (sectioned.outline thread _ here).2
  rcases sectioned.closing abort with aborting | ⟨other, pc, there, closing⟩
  · simp [accepting] at aborting
  · have locked : pc.locked = true := by
      unfold PC.closing at closing
      split at closing <;> first | rfl | cases closing
    have same := sectioned.lock.alone other thread pc _ there here locked rfl
    subst same
    cases here.symm.trans there
    cases closing

theorem Sectioned.log_move (sectioned : Sectioned state)
    (here : state.status thread = .running pc)
    (move : Move thread state.data value pc place after values) : Log after := by
  have log := sectioned.log
  have known := sectioned.outline thread pc here
  cases move with
  | @acquire site down free =>
      cases site with
      | postLock posted => exact log.append_section (.post posted)
      | abortLock => exact log.append_section .abort
      | _ => exact log.of_eq rfl rfl rfl rfl
  | @release site up => cases site <;> first | exact log.of_eq rfl rfl rfl rfl | cases up
  | @drop site =>
      have dropped : Log (state.data.drop thread) := log.of_eq rfl rfl rfl rfl
      cases site with
      | postUnlock back => exact dropped.answer (Decided.stable known (.of_eq rfl rfl rfl rfl))
      | _ => exact dropped
  | insert inserted => exact log.insert known.1 (sectioned.early here) _
  | abort accepting => exact ⟨log.ordered, log.accepted, log.returned, fun _ => ⟨thread, known⟩⟩
  | _ => exact log.of_eq rfl rfl rfl rfl

theorem Sectioned.closing_move (sectioned : Sectioned state)
    (here : state.status thread = .running pc)
    (moved : next.status = Function.update state.status thread (.running place))
    (move : Move thread state.data value pc place next.data values) :
    HasAbort next.data.sections -> next.data.aborting = true ∨
      ∃ thread pc, next.status thread = .running pc ∧ pc.closing = true := by
  have mine (closes : place.closing = true) :
      ∃ thread pc, next.status thread = .running pc ∧ pc.closing = true :=
    ⟨thread, place, by simp [moved], closes⟩
  -- Whoever is closing and does not move still is.
  have still (stays : pc.closing = false) (abort : HasAbort state.data.sections)
      (kept : state.data.aborting = true -> next.data.aborting = true) :
      next.data.aborting = true ∨ ∃ thread pc, next.status thread = .running pc ∧ pc.closing = true := by
    rcases sectioned.closing abort with aborting | ⟨other, pc', there, closes⟩
    · exact Or.inl (kept aborting)
    · refine Or.inr ⟨other, pc', ?_, closes⟩
      have differ : other ≠ thread := by
        rintro rfl
        cases here.symm.trans there
        simp [stays] at closes
      simpa [moved, differ] using there
  intro abort
  generalize later : next.data = after at move abort still ⊢
  cases move with
  | @acquire site down free =>
      cases site with
      | abortLock => exact Or.inr (mine rfl)
      | postLock posted =>
          obtain ⟨owner, member⟩ := abort
          refine still rfl ⟨owner, ?_⟩ id
          simpa [Site.performed, Data.begin] using member
      | _ => exact still rfl abort id
  | @release site up => cases site <;> first | exact still rfl abort id | cases up
  | @drop site =>
      cases site with
      | abortLock => exact Or.inr (mine rfl)
      | _ => exact still rfl abort id
  | again aborting => exact Or.inl aborting
  | abort => exact Or.inl rfl
  | _ => exact still rfl abort id

theorem Sectioned.preserved (sectioned : Sectioned state) (taken : step state action = some next) :
    Sectioned next := by
  obtain ⟨pc, place, here, moved, move⟩ := step_move sectioned.all taken
  have known := sectioned.outline _ pc here
  refine ⟨sectioned.all.preserved taken, queue_brackets.step sectioned.lock taken,
    sectioned.log_move here move, sectioned.closing_move here moved move, fun thread pc' there => ?_⟩
  rw [moved] at there
  by_cases same : thread = action.actor
  · subst same
    simp only [Function.update_self, Status.running.injEq] at there
    exact there ▸ move.arrives sectioned.log known
  · simp only [Function.update_of_ne same] at there
    refine (sectioned.outline thread pc' there).stable (move.frame known same) fun locked => ?_
    refine move.quiet ?_ ?_
    · by_contra also
      exact same (sectioned.lock.alone _ _ _ _ there here locked (by simpa using also))
    · by_contra free
      exact sectioned.lock.free (Nat.pos_of_ne_zero free) _ _ there locked

theorem initial_sectioned : Sectioned initial where
  all thread := by cases thread <;> exact ⟨_, rfl⟩
  lock := by
    refine ⟨le_rfl, fun _ thread pc there => ?_, fun one two pc place here _ locked => ?_,
      fun thread _ _ pc wait => ?_⟩
    · cases thread <;> cases there <;> simp [PC.locked, Site.inside]
    · cases one <;> cases here <;> simp [PC.locked, Site.inside] at locked
    · cases thread <;> simp [initial] at wait
  log := by constructor <;> simp [initial]
  closing := by simp [HasAbort, initial]
  outline thread pc there := by cases thread <;> cases there <;> trivial

end Steps

end ZSystem.MessageLoop
