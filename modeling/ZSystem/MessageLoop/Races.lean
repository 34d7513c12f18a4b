import ZSystem.MessageLoop.Lifetime
import ZSystem.Shared.Races

set_option autoImplicit false

/-!
# Data races of the message loop

What posts, aborts and the loop thread read and write besides the kernel semaphores.
-/

namespace ZSystem.MessageLoop

open Posix Transition

inductive Location where
  -- `first`, `last` and `aborting`.
  | queue
  | element (address : Nat)
  -- `*references`, which the handle of the loop and its duplicates share.
  | references
  -- The `struct zs__semaphore` of the loop.
  | mutex
  -- `mutex`, `response`, `instance` and `after_abort`, which nobody writes before `free`.
  | loop
  deriving DecidableEq, Repr

/-- A new element is nobody else's until it is linked. `free` counts as a write. -/
def accesses (data : Data) (_ : ThreadId) : PC -> List (Access × Location)
  | .duplicate _ => [(.read, .loop), (.read, .mutex), (.write, .references)]
  | .dropDuplicate _ => [(.write, .references)]
  | .postTest _ => [(.read, .queue)]
  | .postInsert _ =>
      (.write, .queue) :: if data.queue.last = 0 then [] else [(.write, .element data.queue.last)]
  | .abortTest => [(.write, .queue)]
  | .runTake =>
      (.write, .queue) :: if data.queue.first = 0 then [] else [(.read, .element data.queue.first)]
  | .runRespond element => [(.read, .loop), (.read, .element element)]
  | .runFree element => [(.write, .element element)]
  | .runAfterAbort => [(.read, .loop)]
  | .runDestroy => [(.read, .loop), (.write, .references), (.write, .mutex)]
  | .runFreeLoop => [(.write, .loop), (.write, .queue)]
  | .caller | .op _ | .finished => []

/-- The places that change the counter of the handles. -/
def PC.counts : PC -> Bool
  | .duplicate _ | .dropDuplicate _ | .runDestroy => true
  | _ => false

/-- The places of a post and of an abort with the queue locked. -/
def PC.inside : PC -> Bool
  | .postTest _ | .postInsert _ | .abortTest => true
  | _ => false

/-- The loop thread frees the loop with a post or an abort of `other` inside. -/
def FreedInside (state : State) (freeing other : ThreadId) : Prop :=
  state.status freeing = .running .runFreeLoop ∧ ∃ pc, state.status other = .running pc ∧ pc.inside = true

/-- The loop thread frees the handle, or the loop, and another thread is about to duplicate the handle. -/
def Freeing (state : State) (one two : ThreadId) (location : Location) : Prop :=
  one ≠ two ∧ (∃ site, state.status two = .running (.duplicate site)) ∧
    (location = .mutex ∧ state.status one = .running .runDestroy ∨
      location = .loop ∧ state.status one = .running .runFreeLoop)

section

variable {data : Data} {state : State} {thread : ThreadId} {pc : PC} {access : Access} {location : Location}

theorem accesses_queue (touches : (access, .queue) ∈ accesses data thread pc) :
    pc.locked = true ∧ (pc.inside = true ∨ pc.ofRun = true) ∨ pc = .runFreeLoop := by
  cases pc with
  | postTest | postInsert | abortTest => exact Or.inl ⟨rfl, Or.inl rfl⟩
  | runTake => exact Or.inl ⟨rfl, Or.inr rfl⟩
  | runFreeLoop => exact Or.inr rfl
  | _ => simp [accesses] at touches

theorem inside_accesses (inside : pc.inside = true) : ∃ access, (access, .queue) ∈ accesses data thread pc := by
  cases pc with
  | postTest => exact ⟨.read, List.mem_cons_self⟩
  | postInsert | abortTest => exact ⟨.write, List.mem_cons_self⟩
  | _ => cases inside

theorem accesses_references (touches : (access, .references) ∈ accesses data thread pc) : pc.counts = true := by
  cases pc with
  | duplicate | dropDuplicate | runDestroy => rfl
  | postInsert | runTake =>
      simp only [accesses] at touches
      split_ifs at touches <;> simp at touches
  | _ => simp [accesses] at touches

theorem counts_accesses (counts : pc.counts = true) : (.write, .references) ∈ accesses data thread pc := by
  cases pc with
  | duplicate | dropDuplicate | runDestroy => simp [accesses]
  | _ => cases counts

/-- An element is accessed while it is linked and the queue is locked, or by the loop thread later. -/
theorem accesses_element {address : Nat} (touches : (access, .element address) ∈ accesses data thread pc) :
    (pc.locked = true ∧ address ≠ 0 ∧ (address = data.queue.last ∨ address = data.queue.first)) ∨
      pc = .runRespond address ∨ pc = .runFree address := by
  cases pc with
  | postInsert =>
      simp only [accesses] at touches
      split_ifs at touches with null <;> simp at touches
      obtain ⟨-, rfl⟩ := touches
      exact Or.inl ⟨rfl, null, Or.inl rfl⟩
  | runTake =>
      simp only [accesses] at touches
      split_ifs at touches with null <;> simp at touches
      obtain ⟨-, rfl⟩ := touches
      exact Or.inl ⟨rfl, null, Or.inr rfl⟩
  | runRespond element =>
      obtain ⟨-, rfl⟩ : access = .read ∧ address = element := by simpa [accesses] using touches
      exact Or.inr (Or.inl rfl)
  | runFree element =>
      obtain ⟨-, rfl⟩ : access = .write ∧ address = element := by simpa [accesses] using touches
      exact Or.inr (Or.inr rfl)
  | _ => simp [accesses] at touches

/-- Only the loop thread frees, and nobody else is inside but in front of a duplicate. -/
theorem accesses_freed (freed : location = .mutex ∨ location = .loop)
    (touches : (access, location) ∈ accesses data thread pc) :
    (access = .write -> location = .mutex ∧ pc = .runDestroy ∨ location = .loop ∧ pc = .runFreeLoop) ∧
      (pc.ofRun = true ∨ ∃ site, pc = .duplicate site) := by
  cases pc with
  | duplicate site =>
      refine ⟨fun write => ?_, Or.inr ⟨site, rfl⟩⟩
      obtain rfl | rfl := freed <;> simp [accesses, write] at touches
  | runRespond | runAfterAbort | runDestroy | runFreeLoop =>
      refine ⟨fun write => ?_, Or.inl rfl⟩
      obtain rfl | rfl := freed <;> simp [accesses, write] at touches ⊢
  | postInsert | runTake =>
      simp only [accesses] at touches
      obtain rfl | rfl := freed <;> split_ifs at touches <;> simp at touches
  | _ => obtain rfl | rfl := freed <;> simp [accesses] at touches

/-- An element that the loop thread has taken out is not in the queue any more. -/
theorem Flow.taken {requests : Nat} {addresses contents hand : List Nat} {address : Nat}
    (flow : Flow data requests pc addresses contents hand) (null : address ≠ 0)
    (linked : address = data.queue.last ∨ address = data.queue.first) :
    pc ≠ .runRespond address ∧ pc ≠ .runFree address := by
  have member : address ∈ addresses := by
    rcases linked with rfl | rfl
    · exact (flow.queue.holds.last_allocated null).1
    · have linked := flow.queue.linked
      cases addresses with
      | nil => exact absurd linked null
      | cons head rest => exact linked.1 ▸ List.mem_cons_self
  constructor
  · rintro rfl
    exact flow.hand.1 member
  · rintro rfl
    exact flow.hand.2.1 member

/--
Posts, aborts and the loop thread never access an element at the same time, nor the queue before the loop is
freed. What is left are the counter of the semaphore, which every `zs__semaphore_op` changes twice without a
lock, and the end of the loop, which frees the handle and the loop under whoever is about to duplicate the
handle, and the queue under a post or an abort that is inside.
-/
theorem race_iff_counts_or_freeing (reached : Reachable step initial state) (one two : ThreadId)
    (location : Location) :
    Race (atPlaces accesses) state one two location ↔
      (location = .references ∧ one ≠ two ∧ (∃ pc, state.status one = .running pc ∧ pc.counts = true) ∧
        ∃ pc, state.status two = .running pc ∧ pc.counts = true) ∨
      Freeing state one two location ∨
      (location = .queue ∧
        (FreedInside state one two ∨
          FreedInside state two one ∧ state.Touches (atPlaces accesses) one .write .queue)) := by
  have flowing := flowing_of_reach reached
  obtain ⟨runs, addresses, contents, hand, at', flow⟩ := flowing.flow
  have alone := flowing.sectioned.lock.alone
  have ofRun (thread : ThreadId) (pc : PC) (here : state.status thread = .running pc) (mine : pc.ofRun = true) :
      thread = .run ∧ pc = runs := by
    obtain rfl := (flowing.placed thread pc here).mp mine
    cases at'.symm.trans here
    exact ⟨rfl, rfl⟩
  simp only [Race, touches_atPlaces]
  constructor
  · rintro ⟨different, ⟨pc, here, writes⟩, access, place, there, touches⟩
    cases location with
    | queue =>
        refine Or.inr (Or.inr ⟨rfl, ?_⟩)
        obtain ⟨locked, section'⟩ | rfl := accesses_queue writes <;>
          obtain ⟨also, other⟩ | rfl := accesses_queue touches
        · exact absurd (alone one two pc place here there locked also) different
        · obtain ⟨rfl, -⟩ := ofRun two _ there rfl
          refine Or.inr ⟨⟨there, pc, here, section'.resolve_right fun mine => ?_⟩, pc, here, writes⟩
          exact different (ofRun one pc here mine).1
        · obtain ⟨rfl, -⟩ := ofRun one _ here rfl
          refine Or.inl ⟨here, place, there, other.resolve_right fun mine => ?_⟩
          exact different (ofRun two place there mine).1.symm
        · exact absurd ((ofRun one _ here rfl).1.trans (ofRun two _ there rfl).1.symm) different
    | element address =>
        exfalso
        obtain ⟨locked, null, linked⟩ | late := accesses_element writes <;>
          obtain ⟨also, valid, chained⟩ | later := accesses_element touches
        · exact different (alone one two pc place here there locked also)
        · obtain ⟨rfl, rfl⟩ := ofRun two place there (by obtain rfl | rfl := later <;> rfl)
          exact later.elim (flow.taken null linked).1 (flow.taken null linked).2
        · obtain ⟨rfl, rfl⟩ := ofRun one pc here (by obtain rfl | rfl := late <;> rfl)
          exact late.elim (flow.taken valid chained).1 (flow.taken valid chained).2
        · obtain ⟨rfl, -⟩ := ofRun one pc here (by obtain rfl | rfl := late <;> rfl)
          exact different (ofRun two place there (by obtain rfl | rfl := later <;> rfl)).1.symm
    | references =>
        exact Or.inl ⟨rfl, different, ⟨pc, here, accesses_references writes⟩, place, there,
          accesses_references touches⟩
    | mutex | loop =>
        have freed := (accesses_freed (by simp) writes).1 rfl
        obtain ⟨rfl, -⟩ := ofRun one pc here (by obtain ⟨-, rfl⟩ | ⟨-, rfl⟩ := freed <;> rfl)
        refine Or.inr <| Or.inl ⟨different, ?_, freed.imp (And.imp_right (here.trans <| congrArg _ ·))
          (And.imp_right (here.trans <| congrArg _ ·))⟩
        obtain mine | ⟨site, rfl⟩ := (accesses_freed (by simp) touches).2
        · exact absurd (ofRun two place there mine).1.symm different
        · exact ⟨site, there⟩
  · rintro (⟨rfl, different, ⟨pc, here, counts⟩, place, there, also⟩ | ⟨different, ⟨site, there⟩, freed⟩ |
      ⟨rfl, ⟨here, pc, there, inside⟩ | ⟨⟨there, pc, here, inside⟩, writes⟩⟩)
    · exact ⟨different, ⟨pc, here, counts_accesses counts⟩, .write, place, there, counts_accesses also⟩
    · obtain ⟨rfl, here⟩ | ⟨rfl, here⟩ := freed
      · exact ⟨different, ⟨_, here, by simp [accesses]⟩, .read, _, there, by simp [accesses]⟩
      · exact ⟨different, ⟨_, here, by simp [accesses]⟩, .read, _, there, by simp [accesses]⟩
    · have different : one ≠ two := by
        rintro rfl
        cases here.symm.trans there
        cases inside
      obtain ⟨access, touches⟩ := inside_accesses inside
      exact ⟨different, ⟨_, here, by simp [accesses]⟩, access, pc, there, touches⟩
    · have different : one ≠ two := by
        rintro rfl
        cases here.symm.trans there
        cases inside
      exact ⟨different, writes, .write, _, there, by simp [accesses]⟩

end

/-- A post and the loop thread make their duplicates at the same time. -/
theorem race_iff_counts_or_freeing_start : ∃ final,
    exec step initial [.call (.client 0) (.duplicate (.postLock 7))] = some final ∧
      Race (atPlaces accesses) final .run (.client 0) .references := by
  have parts : (exec step initial [.call (.client 0) (.duplicate (.postLock 7))]).map (fun final =>
      (final.status .run, final.status (.client 0))) =
      some (.running (.duplicate .runAwait), .running (.duplicate (.postLock 7))) := by decide
  obtain ⟨final, run, same⟩ := Option.map_eq_some_iff.mp parts
  obtain ⟨loop, client⟩ := Prod.mk.inj same
  refine ⟨final, run, (race_iff_counts_or_freeing (reachable_of_exec _ run) _ _ _).mpr (Or.inl ?_)⟩
  exact ⟨rfl, by simp, ⟨_, loop, rfl⟩, _, client, rfl⟩

end ZSystem.MessageLoop
