import ZSystem.MessageLoop.Delivery

set_option autoImplicit false

/-!
# How long a message loop lives

The duplicates of the handle keep the kernel semaphores, and nothing keeps the loop: its thread frees
it once it has left its loop, whoever is inside `zs__messageloop_post`.
-/

namespace ZSystem.MessageLoop

open Posix Transition

def PC.using : PC -> Bool
  | .op _ | .dropDuplicate _ => true
  | _ => false

def PC.past : PC -> Bool
  | .runFreeLoop | .finished => true
  | _ => false

/-- How the places tell what has been freed. -/
structure Alive (state : State) : Prop where
  flowing : Flowing state
  destroyed : ∀ pc, state.status .run = .running pc -> state.data.destroyed = pc.past
  freed : ∀ pc, state.status .run = .running pc -> state.data.freed = decide (pc = .finished)
  users : ∀ thread pc, state.status thread = .running pc ->
    (thread ∈ state.data.users ↔ pc.using = true)
  references : state.data.references = state.data.users.card + (!state.data.destroyed).toNat
  removed : state.data.removed = decide (state.data.references = 0)

section Moves

variable {data after : Data} {thread : ThreadId} {pc place : PC} {value values : Sem -> Nat}

theorem Move.freed_client (move : Move thread data value pc place after values)
    (other : pc.ofRun = false) : after.destroyed = data.destroyed ∧ after.freed = data.freed := by
  cases move with
  | @acquire site | @release site | @drop site => cases site <;> exact ⟨rfl, rfl⟩
  | destroy | freeLoop => cases other
  | _ => exact ⟨rfl, rfl⟩

theorem Move.freed_run (move : Move thread data value pc place after values) (mine : pc.ofRun = true)
    (destroyed : data.destroyed = pc.past) (freed : data.freed = decide (pc = .finished)) :
    after.destroyed = place.past ∧ after.freed = decide (place = .finished) := by
  cases move with
  | @acquire site | @release site => cases site <;> exact ⟨destroyed, freed⟩
  | @drop site =>
      cases site with
      | runUnlock element =>
          simp only [Site.next]
          split_ifs <;> exact ⟨destroyed, freed⟩
      | runAwait | runLock => exact ⟨destroyed, freed⟩
      | _ => cases mine
  | destroy => exact ⟨rfl, freed⟩
  | freeLoop => exact ⟨destroyed, rfl⟩
  | call | refuse | accept | insert | again | abort => cases mine
  | _ => exact ⟨destroyed, freed⟩

theorem Move.users (move : Move thread data value pc place after values)
    (using' : thread ∈ data.users ↔ pc.using = true) :
    (thread ∈ after.users ↔ place.using = true) ∧
      ∀ other, other ≠ thread -> (other ∈ after.users ↔ other ∈ data.users) := by
  cases move with
  | duplicate => exact ⟨by simp [Data.duplicate, PC.using], fun other differ => by
      simp [Data.duplicate, differ]⟩
  | @acquire site | @release site => cases site <;> exact ⟨using', fun _ _ => .rfl⟩
  | @drop site =>
      refine ⟨?_, fun other differ => ?_⟩
      · cases site with
        | runUnlock element =>
            simp only [Site.next, Site.returned, Data.drop]
            split_ifs <;> simp [PC.using]
        | _ => simp [Site.next, Site.returned, Data.drop, PC.using]
      · cases site <;> simp [Site.returned, Data.drop, Data.release, differ]
  | call called =>
      obtain ⟨posted, rfl⟩ | rfl := called <;> exact ⟨using', fun _ _ => .rfl⟩
  | _ => exact ⟨using', fun _ _ => .rfl⟩

theorem Move.references (move : Move thread data value pc place after values)
    (using' : thread ∈ data.users ↔ pc.using = true)
    (present : pc = .runDestroy -> data.destroyed = false)
    (references : data.references = data.users.card + (!data.destroyed).toNat)
    (removed : data.removed = decide (data.references = 0)) :
    after.references = after.users.card + (!after.destroyed).toNat ∧
      after.removed = decide (after.references = 0) := by
  cases move with
  | duplicate alive =>
      have new : thread ∉ data.users := fun member => by cases using'.mp member
      refine ⟨?_, ?_⟩
      · simp only [Data.duplicate, Finset.card_insert_of_notMem new, references]
        omega
      · have kept : data.removed = false := by
          rw [removed, references, alive]
          simp
        simp [Data.duplicate, kept]
  | @acquire site | @release site => cases site <;> exact ⟨references, removed⟩
  | @drop site =>
      have mine : thread ∈ data.users := using'.mpr rfl
      have some := Finset.card_pos.mpr ⟨thread, mine⟩
      have fewer : (data.drop thread).references =
          (data.drop thread).users.card + (!(data.drop thread).destroyed).toNat := by
        simp only [Data.drop, Data.release, Finset.card_erase_of_mem mine, references]
        omega
      cases site <;> exact ⟨fewer, rfl⟩
  | destroy =>
      refine ⟨?_, rfl⟩
      simp [Data.release, references, present rfl]
  | _ => exact ⟨references, removed⟩

end Moves

section Steps

variable {state next : State} {action : Action} {thread : ThreadId} {pc place : PC}

theorem Alive.preserved (alive : Alive state) (taken : step state action = some next) : Alive next := by
  have flowing := alive.flowing
  obtain ⟨pc, place, here, moved, move⟩ := step_move flowing.sectioned.all taken
  have placed := flowing.placed _ pc here
  have using' := alive.users _ pc here
  have freed : ∀ pc, next.status .run = .running pc ->
      next.data.destroyed = pc.past ∧ next.data.freed = decide (pc = .finished) := by
    intro pc' there
    rw [moved] at there
    by_cases mine : action.actor = .run
    · rw [mine] at here there
      simp only [Function.update_self, Status.running.injEq] at there
      exact there ▸ move.freed_run (placed.mpr mine) (alive.destroyed pc here) (alive.freed pc here)
    · have there : state.status .run = .running pc' := by simpa [Ne.symm mine] using there
      obtain ⟨destroyed, freed⟩ := move.freed_client (by simpa using fun ofRun => mine (placed.mp ofRun))
      rw [destroyed, freed]
      exact ⟨alive.destroyed pc' there, alive.freed pc' there⟩
  have counted := move.references using' (by
    rintro rfl
    exact alive.destroyed _ (placed.mp rfl ▸ here)) alive.references alive.removed
  refine ⟨flowing.preserved taken, fun pc there => (freed pc there).1, fun pc there => (freed pc there).2,
    fun thread pc' there => ?_, counted.1, counted.2⟩
  rw [moved] at there
  by_cases same : thread = action.actor
  · subst same
    simp only [Function.update_self, Status.running.injEq] at there
    exact there ▸ (move.users using').1
  · rw [(move.users using').2 thread same]
    exact alive.users thread pc' (by simpa [same] using there)

theorem initial_alive : Alive initial where
  flowing := initial_flowing
  destroyed pc there := by cases there; rfl
  freed pc there := by cases there; rfl
  users thread pc there := by cases thread <;> cases there <;> simp [initial, PC.using]
  references := rfl
  removed := rfl

theorem alive_of_reach {allowed : State -> Action -> Prop}
    (reached : Reach step allowed initial state) : Alive state :=
  reached.invariant Alive initial_alive fun _ _ _ alive _ taken => alive.preserved taken

theorem semaphores_kept (reached : Reachable step initial state) {site : Site}
    (here : state.status thread = .running (.op site)) : state.data.removed = false := by
  have alive := alive_of_reach reached
  have member := (alive.users thread _ here).mpr rfl
  have some := Finset.card_pos.mpr ⟨thread, member⟩
  rw [alive.removed, decide_eq_false_iff_not, alive.references]
  omega

/-! ## Posts and the end of the loop -/

/-- The next thing `zs__messageloop_post` does is an access to the loop. -/
def PC.accesses : PC -> Bool
  | .duplicate (.postLock _) | .duplicate .postAnnounce | .duplicate (.postUnlock _)
  | .postTest _ | .postInsert _ => true
  | _ => false

def PC.ahead : PC -> Bool
  | .duplicate site =>
      match site with
      | .postLock _ | .postAnnounce | .postUnlock _ => true
      | _ => false
  | .op site | .dropDuplicate site =>
      match site with
      | .postLock _ | .postAnnounce => true
      | _ => false
  | .postTest _ | .postInsert _ => true
  | _ => false

/-- Once the loop thread has begun to destroy the loop, no post accesses it. -/
def Safe (state : State) : Prop :=
  state.data.destroyed = true -> ∀ thread pc, state.status thread = .running pc -> pc.accesses = false

def NoPost (state : State) : Prop :=
  ∀ thread pc, state.status thread = .running pc -> pc.ahead = false

def NotPosting (_ : State) : Action -> Prop
  | .call _ (.duplicate (.postLock _)) => False
  | _ => True

/-- The loop thread finds the queue empty only while no post is inside, and no post is made later. -/
def LeavesAlone (state : State) : Action -> Prop
  | .run .run _ => state.status .run = .running .runTake -> state.data.queue.first = 0 -> NoPost state
  | .call _ (.duplicate (.postLock _)) => ∀ pc, state.status .run = .running pc -> pc.left = false
  | _ => True

theorem Move.ahead {data after : Data} {value values : Sem -> Nat}
    (move : Move thread data value pc place after values) (ahead : place.ahead = true) :
    pc.ahead = true ∨ ∃ posted, pc = .caller ∧ place = .duplicate (.postLock posted) := by
  cases move with
  | call called =>
      obtain ⟨posted, rfl⟩ | rfl := called
      · exact Or.inr ⟨posted, rfl, rfl⟩
      · cases ahead
  | @duplicate site | @acquire site | @release site =>
      cases site <;> first | exact Or.inl rfl | cases ahead
  | @drop site =>
      cases site with
      | postLock | postAnnounce => exact Or.inl rfl
      | runUnlock element =>
          simp only [Site.next] at ahead
          split_ifs at ahead <;> cases ahead
      | _ => cases ahead
  | refuse | accept | insert => exact Or.inl rfl
  | _ => cases ahead

theorem NoPost.preserved (alone : NoPost state) (alive : Alive state)
    (quiet : NotPosting state action) (taken : step state action = some next) : NoPost next := by
  obtain ⟨pc, place, here, moved, move⟩ := step_move alive.flowing.sectioned.all taken
  intro thread pc' there
  rw [moved] at there
  by_cases same : thread = action.actor
  · subst same
    simp only [Function.update_self, Status.running.injEq] at there
    subst there
    by_contra ahead
    rcases move.ahead (by simpa using ahead) with before | ⟨posted, rfl, rfl⟩
    · rw [alone _ pc here] at before
      cases before
    · -- The call is the only step that goes there from outside the library.
      cases step_cases taken with
      | instr there performed =>
          cases here.symm.trans there
          simp [program, code, Program.perform] at performed
      | @call thread _ place data there chosen =>
          have target := congrFun moved thread
          simp only [Act.actor, State.goto, Function.update_self, Status.running.injEq] at target
          rw [target] at quiet
          exact quiet
      | resume there | wake there => cases here.symm.trans there
      | stop _ handled | abandon _ handled => simp [program] at handled
  · exact alone thread pc' (by simpa [same] using there)

theorem NoPost.safe (alone : NoPost state) : Safe state := by
  intro _ thread pc here
  have none := alone thread pc here
  cases pc with
  | duplicate site => cases site <;> first | rfl | cases none
  | postTest | postInsert => cases none
  | _ => rfl

theorem Move.left {data after : Data} {value values : Sem -> Nat}
    (move : Move thread data value pc place after values) (left : place.left = true) :
    pc.left = true ∨ pc = .runTake ∧ data.queue.remove = some (after.queue, 0) := by
  cases move with
  | call called => obtain ⟨posted, rfl⟩ | rfl := called <;> cases left
  | @duplicate site | @acquire site | @release site =>
      cases site <;> exact Or.inl left
  | @drop site =>
      cases site with
      | runUnlock element =>
          simp only [Site.next] at left
          split_ifs at left with null
          · exact Or.inl (beq_iff_eq.mpr null)
          · cases left
      | _ => cases left
  | take removed =>
      obtain rfl := beq_iff_eq.mp left
      exact Or.inr ⟨rfl, removed⟩
  | afterAbort | destroy | freeLoop => exact Or.inl rfl
  | _ => cases left

theorem remove_null {queue after : Queue} (removed : queue.remove = some (after, 0)) : queue.first = 0 := by
  unfold Queue.remove at removed
  split_ifs at removed with null
  · exact null
  · simp [null] at removed

theorem Flowing.runs (flowing : Flowing state) (mine : action.actor = .run)
    (taken : step state action = some next) : ∃ pick, action = .run .run pick := by
  cases action with
  | run thread pick => exact ⟨pick, by rw [show thread = .run from mine]⟩
  | call thread place =>
      obtain rfl : thread = .run := mine
      cases step_cases taken with
      | @call _ pc _ data here chosen =>
          change calls .run pc place state.data = some data at chosen
          obtain ⟨rfl, -⟩ := calls_cases chosen
          cases (flowing.placed .run .caller here).mpr rfl
  | wake thread =>
      cases step_cases taken with
      | wake here =>
          obtain ⟨pc, running⟩ := flowing.sectioned.all thread
          simp [here] at running
  | interrupt thread =>
      cases step_cases taken with
      | stop _ handled | abandon _ handled => simp [program] at handled

structure Quit (state : State) : Prop where
  alive : Alive state
  alone : ∀ pc, state.status .run = .running pc -> pc.left = true -> NoPost state

theorem Quit.preserved (quit : Quit state) (leaves : LeavesAlone state action)
    (taken : step state action = some next) : Quit next := by
  have alive := quit.alive
  refine ⟨alive.preserved taken, fun pc there left => ?_⟩
  obtain ⟨origin, place, here, moved, move⟩ := step_move alive.flowing.sectioned.all taken
  by_cases mine : action.actor = .run
  · obtain ⟨pick, rfl⟩ := alive.flowing.runs mine taken
    simp only [Act.actor] at here moved move
    have quiet : NotPosting state (.run .run pick) := trivial
    obtain rfl : place = pc := by simpa [moved] using there
    rcases move.left left with before | ⟨rfl, removed⟩
    · exact (quit.alone origin here before).preserved alive quiet taken
    · exact (leaves here (remove_null removed)).preserved alive quiet taken
  · have there : state.status .run = .running pc := by simpa [moved, Ne.symm mine] using there
    refine (quit.alone pc there left).preserved alive ?_ taken
    unfold NotPosting
    split
    · have inside : pc.left = false := leaves pc there
      simp [left] at inside
    · trivial

theorem Quit.safe (quit : Quit state) : Safe state := by
  intro destroyed
  obtain ⟨pc, here⟩ := quit.alive.flowing.sectioned.all .run
  have past : pc.past = true := (quit.alive.destroyed pc here).symm.trans destroyed
  have left : pc.left = true := by cases pc <;> first | rfl | cases past
  exact (quit.alone pc here left).safe destroyed

/-! ## Where a post is inside, the loop may be freed under it -/

def PC.remaining : PC -> Nat
  | .duplicate _ => 5
  | .op _ => 4
  | .dropDuplicate _ => 3
  | .runAfterAbort => 2
  | .runDestroy => 1
  | _ => 0

theorem Alive.advances (alive : Alive state) (here : state.status .run = .running pc)
    (left : pc.left = true) (present : state.data.destroyed = false) :
    ∃ next place, step state (.run .run 1) = some next ∧
      next.status = Function.update state.status .run (.running place) ∧ place.left = true ∧
      place.remaining < pc.remaining ∧
      (pc.locked = true ∨ 0 < state.value .queue -> place.locked = true ∨ 0 < next.value .queue) := by
  have kept : state.data.freed = false := by
    rw [alive.freed pc here, decide_eq_false_iff_not]
    rintro rfl
    rw [alive.destroyed _ here] at present
    cases present
  have inside : pc.past = false := (alive.destroyed pc here).symm.trans present
  unfold PC.left at left
  split at left
  case h_1 element =>
    have performed : program.perform .run 1 state (program.code .run (.duplicate (.runUnlock element))) =
        some ({ state with data := state.data.duplicate .run }.goto .run (.op (.runUnlock element))) := by
      simp [program, code, Program.perform, present]
    exact ⟨_, _, step_of_perform here performed, rfl, left, by simp [PC.remaining], id⟩
  case h_2 element =>
    have few : state.value .queue < 32767 := by
      have most := alive.flowing.sectioned.lock.most
      omega
    have performed : program.perform .run 1 state (program.code .run (.op (.runUnlock element))) =
        some ({ state with value := Function.update state.value .queue (state.value .queue + 1) }.goto .run
          (.dropDuplicate (.runUnlock element))) := by
      simp [program, code, Program.perform, Site.down, Site.sem, few]
    exact ⟨_, _, step_of_perform here performed, rfl, left, by simp [PC.remaining],
      fun _ => Or.inr (by simp [State.goto])⟩
  case h_3 element =>
    obtain rfl := beq_iff_eq.mp left
    exact ⟨_, .runAfterAbort, step_of_perform here rfl, rfl, rfl, by simp [PC.remaining], id⟩
  case h_4 =>
    have performed : program.perform .run 1 state (program.code .run .runAfterAbort) =
        some (state.goto .run .runDestroy) := by
      simp [program, code, onLoop, Program.perform, kept]
    exact ⟨_, _, step_of_perform here performed, rfl, rfl, by simp [PC.remaining], id⟩
  case h_5 =>
    have performed : program.perform .run 1 state (program.code .run .runDestroy) =
        some ({ state with data := { state.data.release with destroyed := true } }.goto .run
          .runFreeLoop) := by
      simp [program, code, onLoop, Program.perform, kept]
    exact ⟨_, _, step_of_perform here performed, rfl, rfl, by simp [PC.remaining], id⟩
  all_goals first | cases inside | cases left

theorem Alive.destroys (alive : Alive state) (here : state.status .run = .running pc)
    (left : pc.left = true) :
    ∃ final, Reach step NotPosting state final ∧ final.data.destroyed = true ∧
      (∀ other, other ≠ .run -> final.status other = state.status other) ∧
      (pc.locked = true ∨ 0 < state.value .queue -> 0 < final.value .queue) := by
  induction steps : pc.remaining using Nat.strong_induction_on generalizing state pc with
  | _ steps ih =>
      cases present : state.data.destroyed with
      | true =>
          have past : pc.past = true := (alive.destroyed pc here).symm.trans present
          refine ⟨state, .refl, present, fun _ _ => rfl, fun free => free.resolve_left ?_⟩
          cases pc <;> first | exact Bool.noConfusion | cases past
      | false =>
          obtain ⟨next, place, taken, moved, still, fewer, free⟩ := alive.advances here left present
          obtain ⟨final, reached, destroyed, others, freed⟩ := ih _ (steps ▸ fewer)
            (alive.preserved taken) (by simp [moved]) still rfl
          have quiet : NotPosting state (.run .run 1) := trivial
          exact ⟨final, Reach.trans (.tail .refl quiet taken) reached, destroyed,
            fun other differ => (others other differ).trans (by simp [moved, differ]), freed ∘ free⟩

/-- Semaphore 0 is free and the loop is destroyed: a post that waits for the semaphore gets it. -/
theorem unsafe_of_waiting (destroyed : state.data.destroyed = true) (free : 0 < state.value .queue)
    {posted : Nat} (here : state.status thread = .running (.op (.postLock posted))) :
    ∃ final, Reach step NotPosting state final ∧ ¬ Safe final := by
  have performed : program.perform thread 1 state (program.code thread (.op (.postLock posted))) =
      some ({ state with value := Function.update state.value .queue (state.value .queue - 1) }.goto thread
        (.dropDuplicate (.postLock posted))) := by
    simp [program, code, Program.perform, Site.down, Site.sem, free]
  obtain ⟨middle, first, there, gone⟩ : ∃ middle, step state (.run thread 1) = some middle ∧
      middle.status thread = .running (.dropDuplicate (.postLock posted)) ∧
      middle.data.destroyed = true :=
    ⟨_, step_of_perform here performed, by simp [State.goto], destroyed⟩
  obtain ⟨final, second, here, gone⟩ : ∃ final, step middle (.run thread 1) = some final ∧
      final.status thread = .running (.postTest posted) ∧ final.data.destroyed = true :=
    ⟨_, step_of_perform there rfl, by simp [State.goto, Site.next], gone⟩
  have quiet (state : State) : NotPosting state (.run thread 1) := trivial
  refine ⟨final, .tail (.tail .refl (quiet _) first) (quiet _) second, fun safe => ?_⟩
  cases safe gone thread _ here

theorem Alive.unsafe_after_exit (alive : Alive state) (here : state.status .run = .running .runTake)
    (empty : state.data.queue.first = 0) (inside : ¬ NoPost state) :
    ∃ final, Reach step NotPosting state final ∧ ¬ Safe final := by
  simp only [NoPost, not_forall, Bool.not_eq_false] at inside
  obtain ⟨thread, pc, there, ahead⟩ := inside
  have apart : thread ≠ .run := by
    rintro rfl
    cases here.symm.trans there
    cases ahead
  -- The loop thread has semaphore 0, so the post is still on its way to it.
  have outside : pc.locked = false := by
    by_contra locked
    exact apart (alive.flowing.sectioned.lock.alone _ _ _ _ there here (by simpa using locked) rfl)
  have kept : state.data.freed = false := by
    rw [alive.freed _ here]
    rfl
  have performed : program.perform .run 1 state (program.code .run .runTake) =
      some ({ state with data := { state.data with queue := state.data.queue } }.goto .run
        (.duplicate (.runUnlock 0))) := by
    simp [program, code, onLoop, Program.perform, kept, Queue.remove, empty]
  obtain ⟨next, taken, exits, stays⟩ : ∃ next, step state (.run .run 1) = some next ∧
      next.status .run = .running (.duplicate (.runUnlock 0)) ∧ next.status thread = state.status thread :=
    ⟨_, step_of_perform here performed, by simp [State.goto], by simp [State.goto, apart]⟩
  obtain ⟨final, reached, destroyed, others, free⟩ := (alive.preserved taken).destroys exits rfl
  have still : final.status thread = .running pc := (others thread apart).trans (stays.trans there)
  have quiet : NotPosting state (.run .run 1) := trivial
  have path : Reach step NotPosting state final := Reach.trans (.tail .refl quiet taken) reached
  cases pc with
  | duplicate site =>
      refine ⟨final, path, fun safe => ?_⟩
      have touches := safe destroyed thread _ still
      cases site with
      | postLock | postAnnounce | postUnlock => cases touches
      | _ => cases ahead
  | op site =>
      cases site with
      | postLock posted =>
          obtain ⟨last, onward, unsafe'⟩ := unsafe_of_waiting destroyed (free (Or.inl rfl)) still
          exact ⟨last, path.trans onward, unsafe'⟩
      | postAnnounce => cases outside
      | _ => cases ahead
  | dropDuplicate site =>
      cases site with
      | postLock | postAnnounce => cases outside
      | _ => cases ahead
  | postTest | postInsert => cases outside
  | _ => cases ahead

theorem Alive.unsafe_after_call (alive : Alive state) (here : state.status .run = .running pc)
    (left : pc.left = true) {posted : Nat}
    (taken : step state (.call thread (.duplicate (.postLock posted))) = some next) :
    ∃ final, Reach step NotPosting next final ∧ ¬ Safe final := by
  have apart : thread ≠ .run := by
    rintro rfl
    obtain ⟨pick, same⟩ := alive.flowing.runs rfl taken
    cases same
  obtain ⟨origin, place, -, moved, -⟩ := step_move alive.flowing.sectioned.all taken
  have called : next.status thread = .running (.duplicate (.postLock posted)) := by
    cases step_cases taken with
    | call => simp [State.goto]
  have stays : next.status .run = .running pc := by simpa [moved, Act.actor, Ne.symm apart] using here
  obtain ⟨final, reached, destroyed, others, -⟩ := (alive.preserved taken).destroys stays left
  refine ⟨final, reached, fun safe => ?_⟩
  cases safe destroyed thread _ ((others thread apart).trans called)

/--
If the loop thread finds its queue empty only while no post is inside, and no post is made later, no
post accesses the loop once its destruction has begun. Where a post is inside when the loop thread
finds the queue empty, some continuation makes it access the loop too late, and there is none
otherwise. The same may happen to every post made later.
-/
theorem posts_before_destroy (state : State) :
    (Reach step LeavesAlone initial state -> Safe state) ∧
    (Reachable step initial state -> state.status .run = .running .runTake ->
      state.data.queue.first = 0 ->
      ((∀ final, Reach step NotPosting state final -> Safe final) ↔ NoPost state)) ∧
    (Reachable step initial state ->
      ∀ pc, state.status .run = .running pc -> pc.left = true -> ∀ thread posted next,
        step state (.call thread (.duplicate (.postLock posted))) = some next ->
        ∃ final, Reach step NotPosting next final ∧ ¬ Safe final) := by
  refine ⟨fun reached => ?_, fun reached here empty => ⟨fun later => ?_, fun alone => ?_⟩,
    fun reached pc here left thread posted next taken => ?_⟩
  · have quit : Quit state := reached.invariant Quit ⟨initial_alive, fun pc there left => by
      cases there
      cases left⟩ fun _ _ _ quit leaves taken => quit.preserved leaves taken
    exact quit.safe
  · by_contra inside
    obtain ⟨final, path, unsafe'⟩ := (alive_of_reach reached).unsafe_after_exit here empty inside
    exact unsafe' (later final path)
  · intro final path
    have kept : Alive final ∧ NoPost final :=
      path.invariant (fun state => Alive state ∧ NoPost state) ⟨alive_of_reach reached, alone⟩
        fun _ _ _ ⟨alive, alone⟩ quiet taken => ⟨alive.preserved taken, alone.preserved alive quiet taken⟩
    exact kept.2.safe
  · exact (alive_of_reach reached).unsafe_after_call here left taken

end Steps

/-- The clients 0 and 1 make their calls first, and the loop thread takes its steps when they have returned. -/
def InTurn (state : State) : Action -> Prop
  | .run .run _ => ∀ number < 2, state.status (.client number) = .running .caller
  | .run (.client number) _ | .call (.client number) _ =>
      number < 2 ∧ state.status .run = .running (.duplicate .runAwait)
  | _ => False

instance (state : State) : (action : Action) -> Decidable (InTurn state action)
  | .run .run _ => inferInstanceAs (Decidable (∀ number < 2, _))
  | .run (.client _) _ | .call (.client _) _ => inferInstanceAs (Decidable (_ ∧ _))
  | .call .run _ | .wake _ | .interrupt _ => inferInstanceAs (Decidable False)

theorem leavesAlone_of_inTurn {final : State} (reached : Reach step InTurn initial final) :
    Reach step LeavesAlone initial final := by
  refine reached.mono_of_invariant
    (fun state => AllRunning state ∧ ∀ number, 2 ≤ number -> state.status (.client number) = .running .caller)
    ⟨fun thread => by cases thread <;> exact ⟨_, rfl⟩, fun _ _ => rfl⟩
    (fun state action next ⟨all, idle⟩ turn taken => ⟨all.preserved taken, fun number larger => ?_⟩)
    fun state action ⟨_, idle⟩ turn => ?_
  · obtain ⟨_, _, -, moved, -⟩ := step_move all taken
    have other : ThreadId.client number ≠ action.actor := by
      intro same
      cases action with
      | run thread | call thread =>
          obtain rfl : .client number = thread := same
          have smaller := turn.1
          omega
      | wake | interrupt => exact turn.elim
    rw [moved, Function.update_of_ne other]
    exact idle number larger
  · cases action with
    | run thread pick =>
        cases thread with
        | run =>
            intro here _ thread pc there
            cases thread with
            | run =>
                cases here.symm.trans there
                rfl
            | client number =>
                have returned : state.status (.client number) = .running .caller := by
                  obtain small | large := Nat.lt_or_ge number 2
                  · exact turn number small
                  · exact idle number large
                cases returned.symm.trans there
                rfl
        | client => trivial
    | call thread place =>
        unfold LeavesAlone
        split
        · trivial
        · rename_i posted same
          cases thread with
          | run => exact turn.elim
          | client =>
              intro pc there
              cases turn.2.symm.trans there
              rfl
        · trivial
    | wake | interrupt => trivial

/-- A post and an abort return before the loop thread handles the data and ends. -/
def postThenAbort : List Action :=
  .call (.client 0) (.duplicate (.postLock 7)) :: runs (.client 0) 11 ++
    .call (.client 1) (.duplicate .abortLock) :: runs (.client 1) 10 ++ runs .run 25

theorem posts_before_destroy_postThenAbort :
    ∃ final, exec step initial postThenAbort = some final ∧ final.data.freed = true ∧
      final.data.delivered = [7] ∧ Safe final := by
  have reached : (exec step initial postThenAbort).map (fun final =>
      (final.data.freed, final.data.delivered)) = some (true, [7]) := by decide +kernel
  obtain ⟨final, run, parts⟩ := Option.map_eq_some_iff.mp reached
  simp only [Prod.mk.injEq] at parts
  have turn : Along step InTurn initial postThenAbort := by decide +kernel
  exact ⟨final, run, parts.1, parts.2,
    (posts_before_destroy final).1 (leavesAlone_of_inTurn (reach_of_along run turn))⟩

/-- A post waits for semaphore 0 while an abort and the loop thread pass it. -/
def abortOvertakesPost : List Action :=
  [.call (.client 0) (.duplicate (.postLock 7)), .run (.client 0) 1,
    .call (.client 1) (.duplicate .abortLock)] ++ runs (.client 1) 10 ++ runs .run 13 ++
    runs (.client 0) 2

/-- The loop is freed, and the post is about to read its `aborting`. -/
theorem posts_before_destroy_fails_abortOvertakesPost :
    ∃ final, exec step initial abortOvertakesPost = some final ∧ final.data.freed = true ∧
      final.status (.client 0) = .running (.postTest 7) ∧ ¬ Safe final := by
  have reached : (exec step initial abortOvertakesPost).map (fun final =>
      (final.data.destroyed, final.data.freed, final.status (.client 0))) =
      some (true, true, .running (.postTest 7)) := by decide
  obtain ⟨final, run, parts⟩ := Option.map_eq_some_iff.mp reached
  simp only [Prod.mk.injEq] at parts
  obtain ⟨destroyed, freed, here⟩ := parts
  exact ⟨final, run, freed, here, fun safe => nomatch safe destroyed _ _ here⟩

end ZSystem.MessageLoop
