import ZSystem.Thread.Valid

set_option autoImplicit false

/-!
# Waiters

Who is inside `zs__thread_wait`, seen from the cleanup of the thread that is waited for.
-/

namespace ZSystem.Thread

open Posix Transition

/-- A status inside `zs__thread_wait(handle)`, between the lookup that found it and the last unlock. -/
def InWait (handle : Nat) : Status Obj PC -> Prop
  | .running (.waitLockEntry other) | .running (.waitIncrement other) | .running (.waitUnlockMap other)
  | .running (.waitCond other) | .running (.waitUnlockEntry other) => other = handle
  | .waiting cv _ _ => cv = .waitingThreadsCv handle
  | _ => False

section

variable {state next : State} {action : Action} {handle : Nat}

theorem Valid.removed (valid : Valid state) {pc : PC} (here : state.status (.library handle) = .running pc)
    (removed : pc.removed = true) : handle ∉ state.data.threadMap :=
  ((valid.at here).own handle rfl).removed removed

/-- A part of the cleanup that its own instructions do not leave is never left. -/
theorem place_kept {keeps : PC -> Bool} (caller : keeps .caller = false) (start : keeps .mainStart = false)
    (goes : ∀ pick pc data after status, keeps pc = true ->
      program.outcome (.library handle) pick pc data = some (after, status) ->
      ∃ place, status = .running place ∧ keeps place = true)
    {pc : PC} (here : state.status (.library handle) = .running pc) (kept : keeps pc = true)
    (taken : step state action = some next) :
    ∃ place, next.status (.library handle) = .running place ∧ keeps place = true := by
  cases arrival taken (.library handle) with
  | stays same => exact ⟨pc, same ▸ here, kept⟩
  | instr _ there _ ran =>
      cases here.symm.trans there
      exact goes _ pc _ _ _ kept ran
  | born _ _ _ _ absent => simp [here] at absent
  | resume _ there => simp [here] at there
  | call _ there chosen =>
      cases here.symm.trans there
      obtain ⟨_, -, -, -, rfl | ⟨rfl, -⟩⟩ | ⟨rfl, -⟩ := calls_cases chosen <;> simp [caller, start] at kept
  | stop _ there _ point =>
      cases here.symm.trans there
      obtain rfl : pc = .caller := by simpa [program] using point
      simp [caller] at kept
  | abandon _ there => simp [here] at there

theorem removed_kept {pc : PC} (here : state.status (.library handle) = .running pc)
    (removed : pc.removed = true) (taken : step state action = some next) :
    ∃ place, next.status (.library handle) = .running place ∧ place.removed = true := by
  refine place_kept rfl rfl (fun pick pc data after status removed ran => ?_) here removed taken
  cases pc <;> simp only [PC.removed, Bool.false_eq_true] at removed <;>
    simp only [Program.outcome, program, code, Instr.result, goTo, branch, withRecord,
      Option.map_some, Option.map_none, Option.some.injEq, Prod.mk.injEq, reduceCtorEq] at ran
  all_goals
    refine ⟨_, ran.2.symm, ?_⟩
    first | rfl | (split_ifs <;> rfl)

theorem Valid.awaited (valid : Valid state) (unknown : handle ∉ state.data.threadMap)
    {thread : ThreadId} (inside : InWait handle (state.status thread)) : state.data.Awaited handle := by
  have outline := valid.outline thread
  cases there : state.status thread with
  | absent => simp [there, InWait] at inside
  | running pc =>
      rw [there] at inside outline
      cases pc <;> simp only [InWait] at inside
      case waitLockEntry => exact absurd (inside ▸ outline.place) unknown
      case waitIncrement | waitUnlockMap => exact absurd (inside ▸ outline.place.1) unknown
      all_goals exact inside ▸ outline.place.2.2
  | waiting cv mutex pc =>
      rw [there] at inside outline
      obtain ⟨-, rfl, -⟩ | ⟨other, rfl, -, place, -⟩ := outline.2
      · cases inside
      · cases inside
        exact place.2.2

end

end ZSystem.Thread
