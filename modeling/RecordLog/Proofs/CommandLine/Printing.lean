import RecordLog.CommandLine.Run
import RecordLog.Proofs.Json.Lines

/-!
# Printing lines

A command prints its lines one after the other.  If output takes all of them, the command ends
with its status; the first line that output cannot take stops the program, and the lines before
it stay printed (`printed_printingLines`).

What output takes is a matter of the platform.  Output in UTF-8 takes the texts without lone
surrogates (`Platform.PrintsUtf8`).
-/

namespace RecordLog

/-- Standard output is in UTF-8 and takes no lone surrogates. -/
def Platform.PrintsUtf8 (platform : Platform) : Prop :=
  ∀ t : Text, platform.prints t = !t.hasSurrogate

/-- Output in UTF-8 takes the texts without lone surrogates. -/
theorem Platform.PrintsUtf8.prints_iff {platform : Platform} (h : platform.PrintsUtf8) {t : Text} :
    platform.prints t = true ↔ ∀ c ∈ t, ¬ c.isSurrogate := by
  rw [h, Bool.not_eq_true', Text.hasSurrogate, List.any_eq_false]

namespace CommandLine

variable {platform : Platform} {status : Nat} {lines : List Text} {ending : Ending}

/-- An ending in which lines are printed. -/
inductive Printed (platform : Platform) (status : Nat) : List Text → Ending → Prop
  /-- Output takes all lines. -/
  | all {lines : List Text} (h : ∀ line ∈ lines, platform.prints line = true) :
      Printed platform status lines ⟨.ok status, lines.flatMap ended⟩
  /-- Output takes the lines before one that it cannot take. -/
  | stopped {before later : List Text} {line : Text}
      (h : ∀ line ∈ before, platform.prints line = true) (hline : platform.prints line = false) :
      Printed platform status (before ++ line :: later) ⟨.error .unprintable, before.flatMap ended⟩

/-- A line that output takes is printed first. -/
theorem Printed.cons {line : Text} (hline : platform.prints line = true)
    (h : Printed platform status lines ending) :
    Printed platform status (line :: lines)
      { ending with printed := ended line ++ ending.printed } := by
  cases h with
  | all h => exact .all (List.forall_mem_cons.mpr ⟨hline, h⟩)
  | @stopped before later refused h hrefused =>
      rw [← List.cons_append]
      exact .stopped (List.forall_mem_cons.mpr ⟨hline, h⟩) hrefused

/-- **Lines are printed up to the first that output cannot take.** -/
theorem printed_printingLines (platform : Platform) (status : Nat) (lines : List Text) :
    Printed platform status lines (.printingLines platform status lines) := by
  induction lines with
  | nil => exact .all (List.forall_mem_nil _)
  | cons line lines ih =>
      rw [Ending.printingLines]
      split
      · next hline => exact ih.cons hline
      · next hline => exact .stopped (List.forall_mem_nil _) (Bool.eq_false_iff.mpr hline)

/-- Lines that output takes are all printed. -/
theorem Printed.eq_of_prints (h : Printed platform status lines ending)
    (htaken : ∀ line ∈ lines, platform.prints line = true) :
    ending = ⟨.ok status, lines.flatMap ended⟩ := by
  cases h with
  | all => rfl
  | stopped _ hrefused =>
      have hline := htaken _ (List.mem_append_right _ List.mem_cons_self)
      rw [hrefused] at hline
      cases hline

/-- A line that output cannot take stops the program. -/
theorem Printed.status_of_refused (h : Printed platform status lines ending) {line : Text}
    (hline : line ∈ lines) (hrefused : platform.prints line = false) :
    ending.status = .error .unprintable := by
  cases h with
  | all htaken =>
      rw [htaken line hline] at hrefused
      cases hrefused
  | stopped => rfl

end CommandLine

end RecordLog
