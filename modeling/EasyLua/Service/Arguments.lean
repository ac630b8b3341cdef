import EasyLua.Service.CommandLine

/-!
# The arguments of a service

What `startService` hands on to the `main` of a new VM: the command line without its separators.
-/

namespace EasyLua

namespace CommandLine

open SplitString (Lossless splitString splitString_split lossless)

theorem cString_eq_self {bytes : List UInt8} (noZero : 0 ∉ bytes) : cString bytes = bytes := by
  unfold cString
  rw [List.takeWhile_eq_self_iff]
  intro c member
  rw [decide_eq_true_eq]
  rintro rfl
  exact noZero member

/-- `strcpy` copies the whole piece, since the command line is a C string. -/
theorem flatten_words (CMD_LINE : List UInt8) :
    (words CMD_LINE).flatten = (cString CMD_LINE).filter (· ≠ byte ' ') := by
  obtain ⟨closed, split, _⟩ :=
    splitString_split (s := cString CMD_LINE) (List.cons_ne_nil (byte ' ') [])
  have pieces := split.flatten
  have copied : words CMD_LINE =
      splitString (cString CMD_LINE) [byte ' '] (List.cons_ne_nil _ _) := by
    refine (List.map_congr_left fun piece member => cString_eq_self ?_).trans (List.map_id _)
    intro zero
    have inside := List.mem_flatten_of_mem member zero
    rw [pieces] at inside
    exact not_mem_cString CMD_LINE (List.mem_filter.mp inside).1
  rw [copied, pieces]

/-- **Nothing of a command line is lost** but separators: whatever is split, joining the pieces
gives it back, and what `startService` hands on behind the name of the program is the command
line, a C string, without its blanks. -/
theorem arguments_lossless (s c : List UInt8) (nonempty : c ≠ []) (CMD_LINE : List UInt8) :
    Lossless s c nonempty ∧
      ∃ passed : List Word,
        argv CMD_LINE = some (cString ("EXE_HOLDER ".toList.map byte)) :: passed.map some ∧
        passed.flatten = (cString CMD_LINE).filter (· ≠ byte ' ') :=
  ⟨lossless nonempty, words CMD_LINE, rfl, flatten_words CMD_LINE⟩

/-- A separator that overlaps itself, and a command line that begins and ends with blanks. -/
theorem arguments_lossless_overlapping :
    Lossless [97, 97, 97] [97, 97] (List.cons_ne_nil _ _) ∧
      ∃ passed : List Word, argv [32, 97, 32, 32, 98, 32] =
          some (cString ("EXE_HOLDER ".toList.map byte)) :: passed.map some ∧
        passed.flatten = [97, 98] :=
  arguments_lossless [97, 97, 97] [97, 97] (List.cons_ne_nil _ _) [32, 97, 32, 32, 98, 32]

end CommandLine

end EasyLua
