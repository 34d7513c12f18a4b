import ZSystem.Shared.Posix

set_option autoImplicit false

/-!
# Semaphores used as locks

A semaphore that starts with 1 and that every thread acquires before and releases after the same
places of its code lets one thread at a time into these places.
-/

namespace Posix

variable {T O L D : Type} [DecidableEq T] [DecidableEq O]

/-- An instruction at `pc` enters and leaves the places in `holds` through `sem` only. -/
def Brackets.Respects (sem : O) (holds : T -> L -> Prop) (thread : T) (pc : L) : Instr T O L D -> Prop
  | .acquire other next =>
      if other = sem then holds thread next else (holds thread next ↔ holds thread pc)
  | .release other next =>
      if other = sem then holds thread pc ∧ ¬ holds thread next
      else (holds thread next ↔ holds thread pc)
  | .lock _ next | .unlock _ next | .signal _ next | .broadcast _ next | .cancel _ next =>
      holds thread next ↔ holds thread pc
  | .wait _ _ next => ¬ holds thread pc ∧ ¬ holds thread next
  | .act effect =>
      ∀ pick data result next, effect pick data = some (result, next) ->
        (holds thread next ↔ holds thread pc)
  | .look _ next => ∀ data, holds thread (next data) ↔ holds thread pc
  | .start child first next => (holds thread next ↔ holds thread pc) ∧ ¬ holds child first
  | .halt => True

structure Brackets (program : Program T O L D) (sem : O) (holds : T -> L -> Prop) : Prop where
  instr : ∀ thread pc, Brackets.Respects sem holds thread pc (program.code thread pc)
  call : ∀ thread pc place data result, program.calls thread pc place data = some result ->
    (holds thread place ↔ holds thread pc)
  handler : ∀ thread place, program.handler thread = some place -> ¬ holds thread place
  interruptible : ∀ thread pc, program.interruptible pc = true -> ¬ holds thread pc

/-- One thread at a time is at the places in `holds`, and none while the semaphore is free. -/
structure Bracketed (holds : T -> L -> Prop) (value : Nat) (status : T -> Status O L) : Prop where
  most : value ≤ 1
  free : 0 < value -> ∀ thread pc, status thread = .running pc -> ¬ holds thread pc
  alone : ∀ one two pc place, status one = .running pc -> status two = .running place ->
    holds one pc -> holds two place -> one = two
  waiting : ∀ thread cv mutex pc, status thread = .waiting cv mutex pc -> ¬ holds thread pc

section Bracketed

variable {program : Program T O L D} {state next : State T O L D} {action : Act T L} {sem : O}
  {holds : T -> L -> Prop} {value : Nat} {status : T -> Status O L} {thread : T} {pc : L}

omit [DecidableEq O] in
theorem Bracketed.move (bracketed : Bracketed holds value status) (thread : T) (after : Status O L)
    (keeps : ∀ place, after = .running place -> holds thread place ->
      ∃ pc, status thread = .running pc ∧ holds thread pc)
    (waits : ∀ cv mutex place, after = .waiting cv mutex place -> ¬ holds thread place) :
    Bracketed holds value (Function.update status thread after) := by
  -- Whoever is at the places now was there before.
  have before (other : T) (place : L) (there : Function.update status thread after other = .running place)
      (holding : holds other place) : ∃ pc, status other = .running pc ∧ holds other pc := by
    by_cases same : other = thread
    · subst same
      exact keeps place (by simpa using there) holding
    · exact ⟨place, by simpa [same] using there, holding⟩
  refine ⟨bracketed.most, fun free other place there holding => ?_,
    fun one two pc place here there holds also => ?_, fun other cv mutex place wait => ?_⟩
  · obtain ⟨pc, here, held⟩ := before other place there holding
    exact bracketed.free free other pc here held
  · obtain ⟨_, first, held⟩ := before one pc here holds
    obtain ⟨_, second, alsoHeld⟩ := before two place there also
    exact bracketed.alone one two _ _ first second held alsoHeld
  · by_cases same : other = thread
    · subst same
      exact waits cv mutex place (by simpa using wait)
    · exact bracketed.waiting other cv mutex place (by simpa [same] using wait)

omit [DecidableEq O] in
theorem Bracketed.take (bracketed : Bracketed holds value status) (free : 0 < value) (place : L) :
    Bracketed holds (value - 1) (Function.update status thread (.running place)) := by
  have nobody := bracketed.free free
  have one : value = 1 := Nat.le_antisymm bracketed.most free
  have mine (other : T) (pc : L)
      (there : Function.update status thread (Status.running (O := O) place) other = .running pc)
      (holding : holds other pc) : other = thread := by
    by_contra different
    exact nobody other pc (by simpa [different] using there) holding
  refine ⟨by omega, by omega, fun one two pc place here there holds also => ?_,
    fun other cv mutex pc wait => ?_⟩
  · rw [mine one pc here holds, mine two place there also]
  · by_cases same : other = thread
    · simp [same] at wait
    · exact bracketed.waiting other cv mutex pc (by simpa [same] using wait)

omit [DecidableEq O] in
theorem Bracketed.give (bracketed : Bracketed holds value status) (here : status thread = .running pc)
    (holding : holds thread pc) {place : L} (out : ¬ holds thread place) :
    Bracketed holds (value + 1) (Function.update status thread (.running place)) := by
  have zero : value = 0 := by
    by_contra some
    exact bracketed.free (Nat.pos_of_ne_zero some) thread pc here holding
  have nobody (other : T) (pc' : L)
      (there : Function.update status thread (Status.running (O := O) place) other = .running pc') :
      ¬ holds other pc' := fun held => by
    by_cases same : other = thread
    · subst same
      simp only [Function.update_self, Status.running.injEq] at there
      exact out (there ▸ held)
    · exact same (bracketed.alone other thread pc' pc (by simpa [same] using there) here held holding)
  refine ⟨by omega, fun _ => nobody, fun one _ pc' _ first _ held => absurd held (nobody one pc' first),
    fun other cv mutex pc' wait => ?_⟩
  by_cases same : other = thread
  · simp [same] at wait
  · exact bracketed.waiting other cv mutex pc' (by simpa [same] using wait)

omit [DecidableEq O] in
theorem Bracketed.goto (bracketed : Bracketed holds value status) (here : status thread = .running pc)
    {place : L} (same : holds thread place ↔ holds thread pc) :
    Bracketed holds value (Function.update status thread (.running place)) :=
  bracketed.move thread _ (by
    rintro _ ⟨⟩ holding
    exact ⟨pc, here, same.mp holding⟩) (by simp)

theorem Bracketed.perform (bracketed : Bracketed holds (state.value sem) state.status)
    (here : state.status thread = .running pc) {instr : Instr T O L D} {pick : Nat} {after : State T O L D}
    (respects : Brackets.Respects sem holds thread pc instr)
    (performed : program.perform thread pick state instr = some after) :
    Bracketed holds (after.value sem) after.status := by
  cases instr with
  | lock mutex place =>
      simp only [Program.perform] at performed
      split_ifs at performed
      cases performed
      exact bracketed.goto here respects
  | unlock mutex place | signal cv place | broadcast cv place | cancel victim place =>
      cases performed
      exact bracketed.goto here respects
  | wait cv mutex place =>
      cases performed
      exact bracketed.move thread _ (by simp) (by
        rintro _ _ _ ⟨⟩
        exact respects.2)
  | acquire other place =>
      simp only [Program.perform, Brackets.Respects] at performed respects
      split_ifs at performed with free
      cases performed
      by_cases same : other = sem
      · subst same
        simpa [State.goto] using bracketed.take free place
      · simp only [same, if_false] at respects
        simpa [State.goto, Ne.symm same] using bracketed.goto here respects
  | release other place =>
      simp only [Program.perform, Brackets.Respects] at performed respects
      split_ifs at performed
      cases performed
      by_cases same : other = sem
      · subst same
        simp only [if_true] at respects
        simpa [State.goto] using bracketed.give here respects.1 respects.2
      · simp only [same, if_false] at respects
        simpa [State.goto, Ne.symm same] using bracketed.goto here respects
  | act effect =>
      simp only [Program.perform, Option.map_eq_some_iff] at performed
      obtain ⟨⟨data, place⟩, effective, rfl⟩ := performed
      exact bracketed.goto here (respects pick state.data data place effective)
  | look defined place =>
      simp only [Program.perform] at performed
      split_ifs at performed
      cases performed
      exact bracketed.goto here (respects state.data)
  | start child first place =>
      simp only [Program.perform] at performed
      cases born : state.status child <;> simp only [born, reduceCtorEq, Option.some.injEq] at performed
      subst performed
      have different : thread ≠ child := fun same => by simp [same, born] at here
      have started := bracketed.move child (.running first) (by
        rintro _ ⟨⟩ holding
        exact absurd holding respects.2) (by simp)
      exact started.goto (by simpa [different] using here) respects.1
  | halt => simp [Program.perform] at performed

theorem Brackets.step (brackets : Brackets program sem holds)
    (bracketed : Bracketed holds (state.value sem) state.status)
    (taken : program.step state action = some next) :
    Bracketed holds (next.value sem) next.status := by
  cases step_cases taken with
  | @instr thread pick pc after here performed =>
      have kept := bracketed.perform here (brackets.instr thread pc) performed
      exact kept
  | @resume thread pick cv mutex pc here awake free =>
      exact bracketed.move thread _ (by
        rintro _ ⟨⟩ holding
        exact absurd holding (bracketed.waiting thread cv mutex pc here)) (by simp)
  | call here chosen => exact bracketed.goto here (brackets.call _ _ _ _ _ chosen)
  | wake => exact bracketed
  | @stop thread pc place here handled point =>
      exact bracketed.move thread _ (by
        rintro _ ⟨⟩ holding
        exact absurd holding (brackets.handler thread place handled)) (by simp)
  | @abandon thread cv mutex pc place here handled =>
      exact bracketed.move thread _ (by simp) (by
        rintro _ _ _ ⟨⟩
        exact brackets.handler thread place handled)

end Bracketed

theorem value_most {program : Program T O L D} {state next : State T O L D} {action : Act T L} {most : Nat}
    (limit : program.limit = some most) (below : ∀ sem, state.value sem ≤ most)
    (taken : program.step state action = some next) (sem : O) : next.value sem ≤ most := by
  cases step_cases taken with
  | @instr thread pick pc after here performed =>
      change after.value sem ≤ most
      cases instr : program.code thread pc with
      | acquire other place =>
          simp only [instr, Program.perform] at performed
          split_ifs at performed
          cases performed
          by_cases same : sem = other
          · subst same
            have less := below sem
            simp only [State.goto, Function.update_self]
            omega
          · simpa [State.goto, same] using below sem
      | release other place =>
          simp only [instr, Program.perform, limit] at performed
          split_ifs at performed with room
          cases performed
          by_cases same : sem = other
          · subst same
            have less := room most rfl
            simp only [State.goto, Function.update_self]
            omega
          · simpa [State.goto, same] using below sem
      | lock mutex place | look defined place =>
          simp only [instr, Program.perform] at performed
          split_ifs at performed
          cases performed
          exact below sem
      | start child first place =>
          simp only [instr, Program.perform] at performed
          cases born : state.status child <;> simp only [born, reduceCtorEq, Option.some.injEq] at performed
          subst performed
          exact below sem
      | act effect =>
          simp only [instr, Program.perform, Option.map_eq_some_iff] at performed
          obtain ⟨_, -, rfl⟩ := performed
          exact below sem
      | halt => simp [instr, Program.perform] at performed
      | _ =>
          simp only [instr, Program.perform, Option.some.injEq] at performed
          subst performed
          exact below sem
  | _ => exact below sem

end Posix
