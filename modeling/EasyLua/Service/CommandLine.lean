import EasyLua.Service.SplitString
import Mathlib.Data.List.TakeWhile

/-!
# The command line of a service

`startService` splits its command line and makes an `argv` of the pieces, and the `main` of
`lua.c` walks through it: `collectargs` until it finds a word that is no option, or a null
pointer, and `runargs` up to the index that `collectargs` has found. The array is read cell by
cell, so a cell that does not exist is told apart from one that holds a null pointer.
-/

namespace EasyLua

namespace CommandLine

/-- A C string, without its terminator. -/
abbrev Word := List UInt8

/-- The byte of a character literal. -/
def byte (c : Char) : UInt8 := c.toUInt8

/-! ## `startService` -/

/-- What C functions see of a string: the bytes before the first zero. -/
def cString (bytes : List UInt8) : Word := bytes.takeWhile (· ≠ 0)

/-- The words of a command line: `args` of `startService` from its second entry on, as `strcpy`
copies them. -/
def words (CMD_LINE : List UInt8) : List Word :=
  let sCmdLine := cString CMD_LINE
  (SplitString.splitString sCmdLine [byte ' '] (List.cons_ne_nil _ _)).map cString

/-- `args` of `startService`, as `strcpy` copies it. -/
def args (CMD_LINE : List UInt8) : List Word :=
  cString ("EXE_HOLDER ".toList.map byte) :: words CMD_LINE

/-- The `argv` of `startService`. -/
def argv (CMD_LINE : List UInt8) : List (Option Word) := (args CMD_LINE).map some

def argc (CMD_LINE : List UInt8) : Nat := (args CMD_LINE).length

/-! ## `collectargs` and `runargs` -/

/-- A read that C does not allow. -/
inductive Failure
  /-- `argv[i]` with `i` behind the array. -/
  | outOfBounds (i : Nat)
  /-- A character behind the terminator of a string. -/
  | pastTerminator
  | nullPointer

/-- `argv[i]`; a null pointer is `none`. -/
def argvAt (argv : List (Option Word)) (i : Nat) : Except Failure (Option Word) :=
  match argv[i]? with
  | some cell => .ok cell
  | none => .error (.outOfBounds i)

/-- `argv[i][j]`. -/
def charAt (word : Word) (j : Nat) : Except Failure UInt8 :=
  match (word ++ [0])[j]? with
  | some c => .ok c
  | none => .error .pastTerminator

def has_error : Nat := 1

def has_i : Nat := 2

def has_v : Nat := 4

def has_e : Nat := 8

def has_E : Nat := 16

/-- How `collectargs` goes on after a word. -/
inductive Step
  | return_ (args first : Nat)
  /-- The next word is behind as many more words. -/
  | continue_ (skipped args : Nat)

/-- The check of `-E`, `-i` and `-v`: extra characters are an error. -/
def checkExtra (word : Word) (i args : Nat) : Except Failure Step := do
  let c ← charAt word 2
  if c ≠ 0 then return .return_ has_error i
  else return .continue_ 0 args

/-- The check of `-e` and `-l`, which need an argument. -/
def checkArgument (argv : List (Option Word)) (word : Word) (i args : Nat) :
    Except Failure Step := do
  let c ← charAt word 2
  if c = 0 then
    match ← argvAt argv (i + 1) with
    | none => return .return_ has_error i
    | some next =>
        let c ← charAt next 0
        if c = byte '-' then return .return_ has_error i
        else return .continue_ 1 args
  else return .continue_ 0 args

/-- The `switch` of `collectargs`. -/
def checkOption (argv : List (Option Word)) (word : Word) (i args : Nat) (option : UInt8) :
    Except Failure Step := do
  if option = byte '-' then
    let c ← charAt word 2
    if c ≠ 0 then return .return_ has_error i
    else return .return_ args (i + 1)
  else if option = 0 then return .return_ args i
  else if option = byte 'E' then checkExtra word i (args ||| has_E)
  else if option = byte 'i' then checkExtra word i (args ||| has_i ||| has_v)
  else if option = byte 'v' then checkExtra word i (args ||| has_v)
  else if option = byte 'e' then checkArgument argv word i (args ||| has_e)
  else if option = byte 'l' then checkArgument argv word i args
  else return .return_ has_error i

/-- The body of the loop of `collectargs`. -/
def checkWord (argv : List (Option Word)) (word : Word) (i args : Nat) : Except Failure Step := do
  let c ← charAt word 0
  if c ≠ byte '-' then return .return_ args i
  else
    let option ← charAt word 1
    checkOption argv word i args option

theorem argvAt_ok {argv : List (Option Word)} {i : Nat} {cell : Option Word}
    (read : argvAt argv i = .ok cell) : argv[i]? = some cell := by
  unfold argvAt at read
  cases found : argv[i]? with
  | none =>
      rw [found] at read
      cases read
  | some other =>
      rw [found] at read
      exact congrArg some (Except.ok.inj read)

/-- The loop of `collectargs` from an index on: the mask and `*first`. -/
def collectFrom (argv : List (Option Word)) (i args : Nat) : Except Failure (Nat × Nat) :=
  match _read : argvAt argv i with
  | .error failure => .error failure
  | .ok none => .ok (args, i)
  | .ok (some word) =>
      match checkWord argv word i args with
      | .error failure => .error failure
      | .ok (.return_ args first) => .ok (args, first)
      | .ok (.continue_ skipped args) => collectFrom argv (i + skipped + 1) args
termination_by argv.length - i
decreasing_by
  have inside := (List.getElem?_eq_some_iff.mp (argvAt_ok _read)).1
  omega

/-- `collectargs`. -/
def collectargs (argv : List (Option Word)) : Except Failure (Nat × Nat) := collectFrom argv 1 0

/-- The loop of `runargs` from an index on, where `run` says whether `dostring` or `dolibrary`
returns `LUA_OK`. -/
def runFrom (run : UInt8 → Word → Bool) (argv : List (Option Word)) (i n : Nat) :
    Except Failure Bool :=
  if i < n then
    match argvAt argv i with
    | .error failure => .error failure
    | .ok none => .error .nullPointer
    | .ok (some word) =>
        match charAt word 1 with
        | .error failure => .error failure
        | .ok option =>
            if option = byte 'e' ∨ option = byte 'l' then
              match charAt word 2 with
              | .error failure => .error failure
              | .ok c =>
                  if c = 0 then
                    match argvAt argv (i + 1) with
                    | .error failure => .error failure
                    | .ok none => .error .nullPointer
                    | .ok (some extra) =>
                        if run option extra then runFrom run argv (i + 2) n else .ok false
                  else if run option (word.drop 2) then runFrom run argv (i + 1) n
                  else .ok false
            else runFrom run argv (i + 1) n
  else .ok true
termination_by n - i

/-- `runargs`. -/
def runargs (run : UInt8 → Word → Bool) (argv : List (Option Word)) (n : Nat) :
    Except Failure Bool :=
  runFrom run argv 1 n

/-- The mask, `script`, and what `runargs` returns if `pmain` calls it. -/
def pmain (run : UInt8 → Word → Bool) (argv : List (Option Word)) :
    Except Failure (Nat × Nat × Option Bool) := do
  let (args, script) ← collectargs argv
  if args = has_error then return (args, script, none)
  else
    let ok ← runargs run argv script
    return (args, script, some ok)

/-- `argv` is only read inside the array, whatever the scripts of the options return, and the
first index that was not handled is at most `argc`. -/
def Scans (argv : List (Option Word)) (argc : Nat) : Prop :=
  ∀ run, ∃ args first ran, pmain run argv = .ok (args, first, ran) ∧ first ≤ argc

/-- `-E`, `-i` and `-v`. -/
def IsFlag (c : UInt8) : Prop := c = byte 'E' ∨ c = byte 'i' ∨ c = byte 'v'

/-- `-e` and `-l`. -/
def TakesArgument (c : UInt8) : Prop := c = byte 'e' ∨ c = byte 'l'

/-- The words that are a sequence of options up to their end; the argument of the last one may
be missing. -/
inductive Options : List Word → Prop
  | nil : Options []
  | flag {c : UInt8} {rest : List Word} (is : IsFlag c) :
      Options rest → Options ([byte '-', c] :: rest)
  /-- The argument in the same word. -/
  | attached {c d : UInt8} {extra : Word} {rest : List Word} (takes : TakesArgument c) :
      Options rest → Options ((byte '-' :: c :: d :: extra) :: rest)
  /-- The argument in the next word, which is no option. -/
  | separate {c : UInt8} {next : Word} {rest : List Word} (takes : TakesArgument c)
      (noOption : next.head? ≠ some (byte '-')) :
      Options rest → Options ([byte '-', c] :: next :: rest)
  | missing {c : UInt8} (takes : TakesArgument c) : Options [[byte '-', c]]

/-! ## Options -/

theorem IsFlag.not_takesArgument {c : UInt8} (is : IsFlag c) : ¬ TakesArgument c := by
  unfold TakesArgument
  rcases is with rfl | rfl | rfl <;> decide

variable {c d : UInt8} {word next extra : Word} {rest : List Word}

theorem options_flag_iff (is : IsFlag c) :
    Options ([byte '-', c] :: rest) ↔ Options rest := by
  constructor
  · intro options
    cases options with
    | flag _ later => exact later
    | separate takes _ _ => exact absurd takes is.not_takesArgument
    | missing takes => exact absurd takes is.not_takesArgument
  · exact Options.flag is

theorem options_attached_iff (takes : TakesArgument c) :
    Options ((byte '-' :: c :: d :: extra) :: rest) ↔ Options rest := by
  constructor
  · intro options
    cases options with
    | attached _ later => exact later
  · exact Options.attached takes

theorem options_separate_iff (takes : TakesArgument c) (noOption : next.head? ≠ some (byte '-')) :
    Options ([byte '-', c] :: next :: rest) ↔ Options rest := by
  constructor
  · intro options
    cases options with
    | flag is _ => exact absurd takes is.not_takesArgument
    | separate _ _ later => exact later
  · exact Options.separate takes noOption

/-- The first word of a sequence of options. -/
theorem Options.first (options : Options (word :: rest)) :
    ∃ c extra, word = byte '-' :: c :: extra ∧
      (IsFlag c ∧ extra = [] ∨ TakesArgument c ∧
        (extra = [] → ∀ next later, rest = next :: later → next.head? ≠ some (byte '-'))) := by
  cases options with
  | flag is _ => exact ⟨_, [], rfl, Or.inl ⟨is, rfl⟩⟩
  | attached takes _ =>
      refine ⟨_, _, rfl, Or.inr ⟨takes, ?_⟩⟩
      intro empty
      cases empty
  | separate takes noOption _ =>
      refine ⟨_, [], rfl, Or.inr ⟨takes, ?_⟩⟩
      intro _ next later same
      cases same
      exact noOption
  | missing takes =>
      refine ⟨_, [], rfl, Or.inr ⟨takes, ?_⟩⟩
      intro _ next later same
      cases same

/-! ## Reading words -/

@[simp] theorem charAt_nil : charAt [] 0 = .ok 0 := rfl

@[simp] theorem charAt_cons_zero (c : UInt8) (word : Word) : charAt (c :: word) 0 = .ok c := rfl

@[simp] theorem charAt_cons_succ (c : UInt8) (word : Word) (j : Nat) :
    charAt (c :: word) (j + 1) = charAt word j := rfl

theorem argvAt_of_drop {argv : List (Option Word)} {i : Nat} {cell : Option Word}
    {cells : List (Option Word)} (here : argv.drop i = cell :: cells) :
    argvAt argv i = .ok cell := by
  have found : argv[i]? = some cell := by
    rw [← List.head?_drop, here]
    rfl
  unfold argvAt
  rw [found]

theorem argvAt_end {argv : List (Option Word)} {i : Nat} (behind : argv.drop i = []) :
    argvAt argv i = .error (.outOfBounds i) := by
  have found : argv[i]? = none := by
    rw [← List.head?_drop, behind]
    rfl
  unfold argvAt
  rw [found]

theorem drop_succ {argv cells : List (Option Word)} {i : Nat} {cell : Option Word}
    (here : argv.drop i = cell :: cells) : argv.drop (i + 1) = cells := by
  rw [← List.drop_drop, here]
  rfl

section Checks

variable (argv : List (Option Word)) (word : Word) (i args : Nat)

theorem checkOption_flag (is : IsFlag c) :
    ∃ mask, checkOption argv word i args c = checkExtra word i mask := by
  rcases is with rfl | rfl | rfl
  · exact ⟨_, rfl⟩
  · exact ⟨_, rfl⟩
  · exact ⟨_, rfl⟩

theorem checkOption_takesArgument (takes : TakesArgument c) :
    ∃ mask, checkOption argv word i args c = checkArgument argv word i mask := by
  rcases takes with rfl | rfl
  · exact ⟨_, rfl⟩
  · exact ⟨_, rfl⟩

/-- Any other character is a bad option. -/
theorem checkOption_other (notDash : c ≠ byte '-') (notEnd : c ≠ 0) (notFlag : ¬ IsFlag c)
    (takesNone : ¬ TakesArgument c) :
    checkOption argv word i args c = .ok (.return_ has_error i) := by
  unfold IsFlag at notFlag
  unfold TakesArgument at takesNone
  push Not at notFlag takesNone
  unfold checkOption
  rw [if_neg notDash, if_neg notEnd, if_neg notFlag.1, if_neg notFlag.2.1, if_neg notFlag.2.2,
    if_neg takesNone.1, if_neg takesNone.2]
  rfl

end Checks

/-! ## The two walks -/

section Walks

variable {argv : List (Option Word)} {i n : Nat} {args : Nat}

theorem runFrom_done (run : UInt8 → Word → Bool) (argv : List (Option Word)) (done : ¬ i < n) :
    runFrom run argv i n = .ok true := by
  rw [runFrom, if_neg done]

/-- `runargs` goes on with another word, or a script has failed. -/
def Passes (run : UInt8 → Word → Bool) (argv : List (Option Word)) (i k n : Nat) : Prop :=
  runFrom run argv i n = runFrom run argv k n ∨ runFrom run argv i n = .ok false

/-- An option without an argument is passed over. -/
theorem passes_other (run : UInt8 → Word → Bool) (inside : i < n)
    (here : argvAt argv i = .ok (some (byte '-' :: c :: extra))) (takesNone : ¬ TakesArgument c) :
    Passes run argv i (i + 1) n := by
  left
  rw [runFrom, if_pos inside, here]
  simp only [charAt_cons_succ, charAt_cons_zero]
  exact if_neg takesNone

theorem passes_attached (run : UInt8 → Word → Bool) (inside : i < n)
    (here : argvAt argv i = .ok (some (byte '-' :: c :: d :: extra)))
    (takes : TakesArgument c) (notEnd : d ≠ 0) : Passes run argv i (i + 1) n := by
  have option : c = byte 'e' ∨ c = byte 'l' := takes
  have unfolded : runFrom run argv i n =
      if run c (d :: extra) then runFrom run argv (i + 1) n else .ok false := by
    rw [runFrom, if_pos inside, here]
    simp only [charAt_cons_succ, charAt_cons_zero]
    rw [if_pos option, if_neg notEnd]
    rfl
  unfold Passes
  rw [unfolded]
  cases run c (d :: extra) with
  | true => exact Or.inl (if_pos rfl)
  | false => exact Or.inr (if_neg Bool.false_ne_true)

theorem passes_separate (run : UInt8 → Word → Bool) (inside : i < n)
    (here : argvAt argv i = .ok (some [byte '-', c]))
    (behind : argvAt argv (i + 1) = .ok (some next)) (takes : TakesArgument c) :
    Passes run argv i (i + 2) n := by
  have option : c = byte 'e' ∨ c = byte 'l' := takes
  have unfolded : runFrom run argv i n =
      if run c next then runFrom run argv (i + 2) n else .ok false := by
    rw [runFrom, if_pos inside, here]
    simp only [charAt_cons_succ, charAt_cons_zero, charAt_nil]
    rw [if_pos option, if_pos trivial, behind]
  unfold Passes
  rw [unfolded]
  cases run c next with
  | true => exact Or.inl (if_pos rfl)
  | false => exact Or.inr (if_neg Bool.false_ne_true)

/-- The null pointer behind the words, or nothing. -/
def ending (null : Bool) : List (Option Word) := if null then [none] else []

/-- What `collectargs` does with a word: it stops there, it goes on behind it or behind its
argument, or the argument is missing at the end. -/
inductive Checked (argv : List (Option Word)) (null : Bool) (word : Word) (rest : List Word)
    (i args : Nat) : Prop
  | stops (mask first : Nat) (noOptions : ¬ Options (word :: rest))
      (checked : checkWord argv word i args = .ok (.return_ mask first))
      (bounds : i ≤ first ∧ first ≤ i + 1)
      (runs : ∀ run, ∃ ok, runFrom run argv i first = .ok ok)
  | whole (mask : Nat) (same : Options (word :: rest) ↔ Options rest)
      (checked : checkWord argv word i args = .ok (.continue_ 0 mask))
      (passes : ∀ run n, i < n → Passes run argv i (i + 1) n)
  | pair (mask : Nat) (next : Word) (later : List Word) (isRest : rest = next :: later)
      (same : Options (word :: rest) ↔ Options later)
      (checked : checkWord argv word i args = .ok (.continue_ 1 mask))
      (passes : ∀ run n, i < n → Passes run argv i (i + 2) n)
  | missing (isRest : rest = []) (options : Options (word :: rest))
      (checked : null = false ∧ checkWord argv word i args = .error (.outOfBounds (i + 1)) ∨
        null = true ∧ checkWord argv word i args = .ok (.return_ has_error i))

variable {null : Bool}

/-- A word at which `collectargs` stops without having used it. -/
theorem Checked.stopsHere (mask : Nat) (noOptions : ¬ Options (word :: rest))
    (checked : checkWord argv word i args = .ok (.return_ mask i)) :
    Checked argv null word rest i args := by
  apply Checked.stops mask i noOptions checked
  · omega
  · exact fun run => ⟨true, runFrom_done run argv (Nat.lt_irrefl i)⟩

theorem checkWord_dash (argv : List (Option Word)) (i args : Nat) (c : UInt8) (extra : Word) :
    checkWord argv (byte '-' :: c :: extra) i args =
      checkOption argv (byte '-' :: c :: extra) i args c := rfl

/-- `--`: the words behind it are no options. -/
theorem checked_dashes (here : argvAt argv i = .ok (some (byte '-' :: byte '-' :: extra)))
    (clean : 0 ∉ extra) :
    Checked argv null (byte '-' :: byte '-' :: extra) rest i args := by
  have noOptions : ¬ Options ((byte '-' :: byte '-' :: extra) :: rest) := by
    intro options
    obtain ⟨_, _, same, ⟨is, _⟩ | ⟨takes, _⟩⟩ := options.first
    · cases same
      revert is
      unfold IsFlag
      decide
    · cases same
      revert takes
      unfold TakesArgument
      decide
  cases extra with
  | nil =>
      apply Checked.stops args (i + 1) noOptions rfl
      · omega
      · intro run
        have passes := passes_other run (Nat.lt_succ_self i) here (by unfold TakesArgument; decide)
        rcases passes with onward | failed
        · exact ⟨true, onward.trans (runFrom_done run argv (Nat.lt_irrefl _))⟩
        · exact ⟨false, failed⟩
  | cons d extra =>
      have notEnd : d ≠ 0 := fun same => clean (same ▸ List.mem_cons_self)
      apply Checked.stopsHere has_error noOptions
      rw [checkWord_dash]
      unfold checkOption
      rw [if_pos rfl]
      simp only [charAt_cons_succ, charAt_cons_zero]
      exact if_pos notEnd

theorem checked_flag (here : argvAt argv i = .ok (some (byte '-' :: c :: extra)))
    (clean : 0 ∉ extra) (is : IsFlag c) :
    Checked argv null (byte '-' :: c :: extra) rest i args := by
  obtain ⟨mask, checked⟩ := checkOption_flag argv (byte '-' :: c :: extra) i args is
  rw [← checkWord_dash] at checked
  cases extra with
  | nil =>
      apply Checked.whole mask (options_flag_iff is) checked
      exact fun run n inside => passes_other run inside here is.not_takesArgument
  | cons d extra =>
      have notEnd : d ≠ 0 := fun same => clean (same ▸ List.mem_cons_self)
      apply Checked.stopsHere has_error
      · intro options
        obtain ⟨_, _, same, ⟨_, empty⟩ | ⟨takes, _⟩⟩ := options.first
        · cases same
          cases empty
        · cases same
          exact is.not_takesArgument takes
      · rw [checked]
        unfold checkExtra
        simp only [charAt_cons_succ, charAt_cons_zero]
        exact if_pos notEnd

theorem checked_takesArgument
    (here : argv.drop i = some (byte '-' :: c :: extra) :: (rest.map some ++ ending null))
    (clean : 0 ∉ extra) (takes : TakesArgument c) :
    Checked argv null (byte '-' :: c :: extra) rest i args := by
  have read := argvAt_of_drop here
  have behind := drop_succ here
  obtain ⟨mask, checked⟩ := checkOption_takesArgument argv (byte '-' :: c :: extra) i args takes
  rw [← checkWord_dash] at checked
  unfold checkArgument at checked
  cases extra with
  | cons d extra =>
      have notEnd : d ≠ 0 := fun same => clean (same ▸ List.mem_cons_self)
      apply Checked.whole mask (options_attached_iff takes)
      · rw [checked]
        simp only [charAt_cons_succ, charAt_cons_zero]
        exact if_neg notEnd
      · exact fun run n inside => passes_attached run inside read takes notEnd
  | nil =>
      cases rest with
      | nil =>
          apply Checked.missing rfl (Options.missing takes)
          cases null with
          | true =>
              have end_ : argvAt argv (i + 1) = .ok none := argvAt_of_drop behind
              right
              rw [checked, end_]
              exact ⟨rfl, rfl⟩
          | false =>
              have end_ := argvAt_end behind
              left
              rw [checked, end_]
              exact ⟨rfl, rfl⟩
      | cons next later =>
          have readNext : argvAt argv (i + 1) = .ok (some next) := argvAt_of_drop behind
          rw [readNext] at checked
          by_cases noOption : next.head? = some (byte '-')
          · obtain ⟨tail, rfl⟩ := List.head?_eq_some_iff.mp noOption
            apply Checked.stopsHere has_error
            · intro options
              obtain ⟨_, _, same, ⟨is, _⟩ | ⟨_, apart⟩⟩ := options.first
              · cases same
                exact is.not_takesArgument takes
              · cases same
                exact apart rfl _ later rfl noOption
            · rw [checked]
              rfl
          · apply Checked.pair mask next later rfl (options_separate_iff takes noOption)
            · rw [checked]
              cases next with
              | nil => rfl
              | cons d tail =>
                  have apart : d ≠ byte '-' := fun same => noOption (congrArg some same)
                  exact if_neg apart
            · exact fun run n inside => passes_separate run inside read readNext takes

/-- **What `collectargs` does with a word**, and that `runargs` can pass it. -/
theorem checkWord_checked (args : Nat)
    (here : argv.drop i = some word :: (rest.map some ++ ending null)) (clean : 0 ∉ word) :
    Checked argv null word rest i args := by
  have read := argvAt_of_drop here
  cases word with
  | nil =>
      apply Checked.stopsHere args
      · intro options
        obtain ⟨_, _, same, _⟩ := options.first
        cases same
      · rfl
  | cons first word =>
      by_cases dash : first = byte '-'
      · subst dash
        cases word with
        | nil =>
            apply Checked.stopsHere args
            · intro options
              obtain ⟨_, _, same, _⟩ := options.first
              cases same
            · rfl
        | cons c extra =>
            have cleanExtra : 0 ∉ extra := by
              intro member
              apply clean
              simp [member]
            by_cases dashes : c = byte '-'
            · subst dashes
              exact checked_dashes read cleanExtra
            by_cases is : IsFlag c
            · exact checked_flag read cleanExtra is
            by_cases takes : TakesArgument c
            · exact checked_takesArgument here cleanExtra takes
            have notEnd : c ≠ 0 := by
              intro same
              apply clean
              simp [same]
            apply Checked.stopsHere has_error
            · intro options
              obtain ⟨_, _, same, ⟨flag, _⟩ | ⟨takes', _⟩⟩ := options.first
              · cases same
                exact is flag
              · cases same
                exact takes takes'
            · rw [checkWord_dash]
              exact checkOption_other argv _ i args dashes notEnd is takes
      · apply Checked.stopsHere args
        · intro options
          obtain ⟨_, _, same, _⟩ := options.first
          cases same
          exact dash rfl
        · exact if_pos dash

/-- `collectargs` at a cell that does not exist. -/
theorem collectFrom_failure {failure : Failure} (read : argvAt argv i = .error failure) :
    collectFrom argv i args = .error failure := by
  rw [collectFrom]
  split
  · next failed =>
      cases read.symm.trans failed
      rfl
  · next null => cases read.symm.trans null
  · next found => cases read.symm.trans found

/-- `collectargs` at a null pointer. -/
theorem collectFrom_null (read : argvAt argv i = .ok none) :
    collectFrom argv i args = .ok (args, i) := by
  rw [collectFrom]
  split
  · next failed => cases read.symm.trans failed
  · rfl
  · next found => cases read.symm.trans found

/-- How the two walks end when they start before some words: they leave the array where nothing
stands behind a sequence of options, and nowhere else. -/
inductive Walked (argv : List (Option Word)) (null : Bool) (rest : List Word) (i args : Nat) : Prop
  | leaves (isNull : null = false) (options : Options rest) (k : Nat)
      (collected : collectFrom argv i args = .error (.outOfBounds k))
  | stays (noOptions : null = false → ¬ Options rest) (mask first : Nat)
      (collected : collectFrom argv i args = .ok (mask, first))
      (bounds : i ≤ first ∧ first ≤ i + rest.length)
      (runs : ∀ run, ∃ ok, runFrom run argv i first = .ok ok)

/-- `collectargs` at a word. -/
theorem collectFrom_word (here : argvAt argv i = .ok (some word)) :
    collectFrom argv i args = match checkWord argv word i args with
      | .error failure => .error failure
      | .ok (.return_ args first) => .ok (args, first)
      | .ok (.continue_ skipped args) => collectFrom argv (i + skipped + 1) args := by
  rw [collectFrom]
  split
  · next failed => cases here.symm.trans failed
  · next null => cases here.symm.trans null
  · next other found =>
      cases here.symm.trans found
      rfl

/-- The walks behind some words are those before them, when `runargs` can pass the words. -/
theorem Walked.before {k mask : Nat} {later : List Word}
    (walked : Walked argv null later (i + k) mask) (same : Options (word :: rest) ↔ Options later)
    (length : k + later.length = rest.length + 1)
    (collects : collectFrom argv i args = collectFrom argv (i + k) mask)
    (passes : ∀ run n, i < n → Passes run argv i (i + k) n) (positive : 0 < k) :
    Walked argv null (word :: rest) i args := by
  cases walked with
  | leaves isNull options far collected =>
      exact .leaves isNull (same.mpr options) far (collects.trans collected)
  | stays noOptions mask first collected bounds runs =>
      apply Walked.stays (fun isNull options => noOptions isNull (same.mp options)) mask first
        (collects.trans collected)
      · rw [List.length_cons]
        omega
      · intro run
        obtain ⟨ok, ran⟩ := runs run
        rcases passes run first (by omega) with onward | failed
        · exact ⟨ok, onward.trans ran⟩
        · exact ⟨false, failed⟩

/-- Behind the words. -/
theorem walked_nil (here : argv.drop i = ending null) : Walked argv null [] i args := by
  cases null with
  | true =>
      have read : argvAt argv i = .ok none := argvAt_of_drop here
      apply Walked.stays (fun impossible => by cases impossible) args i (collectFrom_null read)
      · simp
      · exact fun run => ⟨true, runFrom_done run argv (Nat.lt_irrefl i)⟩
  | false =>
      exact Walked.leaves rfl .nil i (collectFrom_failure (argvAt_end here))

/-- **Both walks from some words on.** -/
theorem walked (rest : List Word) : ∀ (i args : Nat),
    argv.drop i = rest.map some ++ ending null → (∀ word ∈ rest, 0 ∉ word) →
      Walked argv null rest i args := by
  -- An option can take its argument along, so the induction is on the number of words.
  induction length : rest.length using Nat.strong_induction_on generalizing rest with
  | _ count ih =>
      intro i args here clean
      cases rest with
      | nil => exact walked_nil here
      | cons word rest =>
          have read : argvAt argv i = .ok (some word) := argvAt_of_drop here
          have cleanRest : ∀ word ∈ rest, 0 ∉ word :=
            fun word member => clean word (List.mem_cons_of_mem _ member)
          rw [List.length_cons] at length
          cases checkWord_checked args here (clean word List.mem_cons_self) with
          | stops mask first noOptions checked bounds runs =>
              apply Walked.stays (fun _ => noOptions) mask first _ _ runs
              · rw [collectFrom_word read, checked]
              · rw [List.length_cons]
                omega
          | whole mask same checked passes =>
              have onward := ih rest.length (by omega) rest rfl (i + 1) mask (drop_succ here)
                cleanRest
              apply onward.before same (by omega) _ passes (by omega)
              rw [collectFrom_word read, checked]
          | pair mask next later isRest same checked passes =>
              subst isRest
              rw [List.length_cons] at length
              have behind : argv.drop (i + 2) = later.map some ++ ending null :=
                drop_succ (drop_succ here)
              have onward := ih later.length (by omega) later rfl (i + 2) mask behind
                fun word member => cleanRest word (List.mem_cons_of_mem _ member)
              apply onward.before same (by simp; omega) _ passes (by omega)
              rw [collectFrom_word read, checked]
          | missing isRest options checked =>
              rcases checked with ⟨isNull, checked⟩ | ⟨isNull, checked⟩
              · apply Walked.leaves isNull options (i + 1)
                rw [collectFrom_word read, checked]
              · apply Walked.stays (by simp [isNull]) has_error i
                · rw [collectFrom_word read, checked]
                · simp
                · exact fun run => ⟨true, runFrom_done run argv (Nat.lt_irrefl i)⟩

end Walks

/-! ## `startService` -/

/-- No word of a C string has a zero in it. -/
theorem not_mem_cString (bytes : List UInt8) : 0 ∉ cString bytes := by
  intro member
  have nonzero := List.mem_takeWhile_imp member
  simp at nonzero

theorem words_clean {CMD_LINE : List UInt8} : ∀ word ∈ words CMD_LINE, 0 ∉ word := by
  intro word member
  obtain ⟨piece, _, rfl⟩ := List.mem_map.mp member
  exact not_mem_cString piece

theorem scans_of_walked {argv : List (Option Word)} {null : Bool} {rest : List Word}
    (walked : Walked argv null rest 1 0) :
    Scans argv (rest.length + 1) ↔ (null = false → ¬ Options rest) := by
  cases walked with
  | leaves isNull options k collected =>
      refine ⟨fun scans => ?_, fun noOptions => absurd options (noOptions isNull)⟩
      obtain ⟨mask, first, ran, walk, _⟩ := scans fun _ _ => true
      unfold pmain collectargs at walk
      rw [collected] at walk
      cases walk
  | stays noOptions mask first collected bounds runs =>
      refine ⟨fun _ => noOptions, fun _ run => ?_⟩
      obtain ⟨ok, ran⟩ := runs run
      unfold pmain collectargs runargs
      rw [collected]
      by_cases bad : mask = has_error
      · refine ⟨mask, first, none, if_pos bad, by omega⟩
      · refine ⟨mask, first, some ok, ?_, by omega⟩
        refine (if_neg bad).trans ?_
        rw [ran]
        rfl

theorem argc_eq (CMD_LINE : List UInt8) : argc CMD_LINE = (words CMD_LINE).length + 1 := rfl

/-- **With a null pointer behind the words**, as C promises it to `main`, every command line is
scanned inside `argv`. -/
theorem scans_terminated (CMD_LINE : List UInt8) :
    Scans (argv CMD_LINE ++ [none]) (argc CMD_LINE) := by
  have walks : Walked (argv CMD_LINE ++ [none]) true (words CMD_LINE) 1 0 :=
    walked (words CMD_LINE) 1 0 rfl words_clean
  rw [argc_eq, scans_of_walked walks]
  intro impossible
  cases impossible

/-- **The command line is scanned inside `argv` if and only if** its words are not a sequence of
options up to the end. -/
theorem scans_iff (CMD_LINE : List UInt8) :
    Scans (argv CMD_LINE) (argc CMD_LINE) ↔ ¬ Options (words CMD_LINE) := by
  have words_ : (argv CMD_LINE).drop 1 = (words CMD_LINE).map some ++ ending false := by
    simp [argv, args, ending]
  rw [argc_eq, scans_of_walked (walked (words CMD_LINE) 1 0 words_ words_clean)]
  simp

theorem words_nil : words [] = [] := by
  have nowhere : SplitString.find (cString []) [byte ' '] 0 = none := by rfl
  have pieces := SplitString.splitFrom_none (List.cons_ne_nil (byte ' ') []) nowhere
  exact congrArg (List.map cString) pieces

/-- **An empty command line is read past its end**: `argv` only has the name of the program. -/
theorem not_scans_empty : ¬ Scans (argv []) (argc []) := by
  intro scans
  obtain ⟨mask, first, ran, walk, _⟩ := scans fun _ _ => true
  have behind : (argv []).drop 1 = ending false := by
    simp [argv, args, words_nil, ending]
  unfold pmain collectargs at walk
  rw [collectFrom_failure (argvAt_end behind)] at walk
  cases walk

end CommandLine

end EasyLua
