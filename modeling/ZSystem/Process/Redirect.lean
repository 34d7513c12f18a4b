import ZSystem.Process.Connect

set_option autoImplicit false

/-!
# Redirecting the child

The close loop and the two `dup2` calls work on one table, so what comes out depends on the numbers of
the ends that the child keeps.
-/

namespace ZSystem.Process

open ZSystem.Stream (Struct streamCreatePipe)

section Redirect

variable {φ : Type} {limit : Nat} {reader writer : Struct} {table : Table φ} {out inp : φ}

/--
`a_reader` and `a_writer` are two pipes with open ends, and their numbers below the limit are distinct.
`out` is the write end of the one, and `inp` the read end of the other.
-/
structure Pipes (limit : Nat) (reader writer : Struct) (table : Table φ) (out inp : φ) : Prop where
  readerUsable : usable reader = true
  writerUsable : usable writer = true
  numbers : [reader.reader, reader.writer, writer.reader, writer.writer].Nodup
  below : ∀ fd ∈ [reader.reader, reader.writer, writer.reader, writer.writer],
    0 ≤ fd ∧ fd < limit ∧ (table fd).isSome
  output : table reader.writer = some out
  input : table writer.reader = some inp
  distinct : out ≠ inp
  negative : ∀ fd < 0, table fd = none

/-- The child writes into the one pipe and reads from the other, and has nothing else open. -/
structure Redirected (child : Table φ) (out inp : φ) : Prop where
  output : child 1 = some out
  input : child 0 = some inp
  others : ∀ fd file, child fd = some file -> file = out ∨ file = inp

theorem dup2_of_some {old new : Int} {file : φ} (opened : table old = some file) :
    dup2 table old new = Function.update table new (some file) := by
  simp [dup2, opened]

theorem Pipes.apart (pipes : Pipes limit reader writer table out inp) : writer.reader ≠ reader.writer := by
  have numbers := pipes.numbers
  simp only [List.nodup_cons, List.mem_cons] at numbers
  tauto

theorem Pipes.limit_pos (pipes : Pipes limit reader writer table out inp) : 1 < limit := by
  have apart := pipes.apart
  have first := pipes.below writer.reader (by simp)
  have second := pipes.below reader.writer (by simp)
  omega

theorem Pipes.kept (pipes : Pipes limit reader writer table out inp) (fd : Int) :
    closeBut (keeps (some reader) (some writer)) table limit fd =
      if fd = reader.writer then some out else if fd = writer.reader then some inp
      else if fd < limit then none else table fd := by
  rw [closeBut_eq]
  simp only [keeps, Option.any_some, pipes.readerUsable, pipes.writerUsable, Bool.true_and]
  by_cases isOut : fd = reader.writer
  · simp [isOut, pipes.output]
  by_cases isInp : fd = writer.reader
  · simp [isInp, pipes.input, pipes.apart]
  have keeps : (reader.writer == fd || writer.reader == fd) = false := by
    simp [Ne.symm isOut, Ne.symm isInp]
  by_cases negative : fd < 0
  · have small : ¬ (0 ≤ fd) := Int.not_le.mpr negative
    simp [isOut, isInp, small, pipes.negative fd negative]
  · have natural : 0 ≤ fd := Int.not_lt.mp negative
    simp [isOut, isInp, keeps, natural]

/-- What the second `dup2` copies: the first one may have replaced it. -/
def copied (writer : Struct) (out inp : φ) : φ :=
  if writer.reader = 1 then out else inp

theorem Pipes.childTable_eq (pipes : Pipes limit reader writer table out inp) (fd : Int) :
    childTable limit (some reader) (some writer) table fd =
      if fd = 0 then some (copied writer out inp) else if fd = 1 then some out
      else if fd = reader.writer then some out else if fd = writer.reader then some inp
      else if fd < limit then none else table fd := by
  have kept := pipes.kept
  have output : dup2 (closeBut (keeps (some reader) (some writer)) table limit) reader.writer 1 = _ :=
    dup2_of_some ((kept reader.writer).trans (if_pos rfl))
  have input : Function.update (closeBut (keeps (some reader) (some writer)) table limit) 1 (some out)
      writer.reader = some (copied writer out inp) := by
    by_cases one : writer.reader = 1
    · simp [one, copied]
    · rw [Function.update_of_ne one, kept, if_neg pipes.apart, if_pos rfl, copied, if_neg one]
  simp only [childTable, pipes.readerUsable, pipes.writerUsable, if_true, output, dup2_of_some input]
  by_cases zero : fd = 0
  · simp [zero]
  by_cases one : fd = 1
  · simp [one]
  rw [Function.update_of_ne zero, Function.update_of_ne one, kept, if_neg zero, if_neg one]

theorem childTable_redirected_iff (limit : Nat) (reader writer : Struct) (table : Table φ) (out inp : φ)
    (pipes : Pipes limit reader writer table out inp) :
    Redirected (childTable limit (some reader) (some writer) table) out inp ↔
      writer.reader ≠ 1 ∧ ∀ (fd : Int) file, limit ≤ fd -> table fd = some file -> file = out ∨ file = inp := by
  have outputBelow := pipes.below reader.writer (by simp)
  have inputBelow := pipes.below writer.reader (by simp)
  have positive := pipes.limit_pos
  constructor
  · intro redirected
    refine ⟨fun one => pipes.distinct ?_, fun fd file above opened => redirected.others fd file ?_⟩
    · have input := redirected.input
      simpa [pipes.childTable_eq, copied, one] using input
    · rw [pipes.childTable_eq, if_neg (by omega), if_neg (by omega), if_neg (by omega), if_neg (by omega),
        if_neg (by omega), opened]
  · rintro ⟨apart, beyond⟩
    refine ⟨by simp [pipes.childTable_eq], by simp [pipes.childTable_eq, copied, apart],
      fun fd file opened => ?_⟩
    rw [pipes.childTable_eq, copied, if_neg apart] at opened
    split_ifs at opened with zero one isOut isInp below
    · exact Or.inr (Option.some.inj opened).symm
    · exact Or.inl (Option.some.inj opened).symm
    · exact Or.inl (Option.some.inj opened).symm
    · exact Or.inr (Option.some.inj opened).symm
    · exact beyond fd file (Int.not_lt.mp below) opened

def consecutive (count : Nat) : Table Int :=
  fun fd => if 0 ≤ fd ∧ fd < count then some fd else none

theorem consecutive_pipes {limit : Nat} {readerEnd out inp writerEnd : Int}
    (numbers : [readerEnd, out, inp, writerEnd].Nodup)
    (below : ∀ fd ∈ [readerEnd, out, inp, writerEnd], 0 ≤ fd ∧ fd < limit) :
    Pipes limit (streamCreatePipe readerEnd out) (streamCreatePipe inp writerEnd) (consecutive limit) out inp where
  readerUsable := by simp [usable, streamCreatePipe]
  writerUsable := by simp [usable, streamCreatePipe]
  numbers := numbers
  below fd member := ⟨(below fd member).1, (below fd member).2, by simp [consecutive, below fd member]⟩
  output := if_pos (below out (by simp))
  input := if_pos (below inp (by simp))
  distinct := by
    simp only [List.nodup_cons, List.mem_cons] at numbers
    tauto
  negative fd negative := if_neg (by omega)

/-- The ends of `a_writer` are 0 and 1. -/
theorem childTable_redirected_low :
    Redirected (childTable 4 (some (streamCreatePipe 2 3)) (some (streamCreatePipe 0 1)) (consecutive 4)) 3 0 := by
  refine (childTable_redirected_iff 4 _ _ _ 3 0 (consecutive_pipes (by decide) (by decide))).mpr
    ⟨by decide, fun fd file above opened => ?_⟩
  rw [consecutive, if_neg (by omega)] at opened
  cases opened

/-- The read end of `a_writer` is 1: standard output takes its place, and becomes standard input as well. -/
theorem childTable_redirected_fails :
    Pipes 6 (streamCreatePipe 4 5) (streamCreatePipe 1 3) (consecutive 6) 5 1 ∧
      ¬ Redirected (childTable 6 (some (streamCreatePipe 4 5)) (some (streamCreatePipe 1 3)) (consecutive 6))
        5 1 :=
  ⟨consecutive_pipes (by decide) (by decide), fun redirected => absurd redirected.input (by decide)⟩

end Redirect

end ZSystem.Process
