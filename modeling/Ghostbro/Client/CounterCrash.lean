import Ghostbro.Client.Counter

/-!
# A client that dies inside `next_counter`

`fs::write` truncates the counter file and then writes the digits and the line break, so a process
that dies inside the call leaves some prefix of the line.  The empty prefix is no number, and no
later call gets past it.  A shorter prefix of the digits is a smaller number; then only a timestamp
above the last counter keeps the next counter above it.
-/

namespace Ghostbro.Client.Crash

open Machine

/-- Where the process dies inside `next_counter`. -/
inductive CrashPoint
  | beforeTruncation
  /-- The file has been truncated, and this many bytes of the line are written. -/
  | afterBytes (written : ℕ)

/-- The counter file that a call leaves when the process dies in it. -/
def crash (path : String) (file : CounterFile) (floor : UInt64) (point : CrashPoint) :
    CounterFile :=
  match readCounter path file false with
  | .error _ => file
  | .ok current =>
    match point with
    | .beforeTruncation => file
    | .afterBytes written =>
      some (String.ofList ((counterText (chooseCounter current floor)).toList.take written))

/-- The call reads and writes its file without a fault. -/
def Completed (_ : CounterFile) : Event → Prop
  | .call _ readFails fault => readFails = false ∧ fault = none
  | .delete => False

/-- The crash point leaves a number in the file, and its successor or the later timestamp is above
the counter that was stored. -/
def Survives (file : CounterFile) (later : UInt64) : CrashPoint → Prop
  | .beforeTruncation => ∀ current ∈ stored file, current.toNat < 2 ^ 64 - 1
  | .afterBytes written => 0 < written ∧ ∀ current ∈ stored file, current.toNat < 2 ^ 64 - 1 ∧
      (current < later ∨ (Nat.toDigits 10 (current.toNat + 1)).length ≤ written)

/-! ### What completed calls leave -/

/-- The file holds the last of the counters that are used up. -/
structure Kept (used : List UInt64) (file : CounterFile) : Prop where
  fresh : file = none → used = []
  line : ∀ text, file = some text → ∃ current ∈ used, stored file = some current
  ahead : ∀ current, stored file = some current → ∀ earlier ∈ used, earlier ≤ current

variable {path : String} {file initial : CounterFile} {events : List Event}
  {used returned : List UInt64}

theorem le_chooseCounter (current floor : UInt64) : current ≤ chooseCounter current floor := by
  have hlt := current.toNat_lt
  rw [UInt64.le_iff_toNat_le, toNat_chooseCounter]
  omega

theorem kept_step {event : Event} {file' : CounterFile} {emitted : Option UInt64}
    (hkept : Kept used file) (hcompleted : Completed file event)
    (hstep : step path file event = some (file', emitted)) :
    Kept (used ++ emitted.toList) file' := by
  cases event with
  | delete => exact hcompleted.elim
  | call floor readFails fault =>
    obtain ⟨rfl, rfl⟩ := hcompleted
    have hcall (current : UInt64) (hbelow : ∀ earlier ∈ used, earlier ≤ current)
        (hcalled : nextCounter path file floor false none =
          (some (counterText (chooseCounter current floor)),
            .ok (chooseCounter current floor))) :
        Kept (used ++ emitted.toList) file' := by
      rw [step, hcalled] at hstep
      obtain ⟨rfl, rfl⟩ := Prod.mk.inj (Option.some.inj hstep)
      refine ⟨by simp, fun text _ ↦ ?_, fun value hvalue earlier hearlier ↦ ?_⟩
      · exact ⟨chooseCounter current floor, by simp [Except.toOption], stored_counterText _⟩
      · rw [stored_counterText] at hvalue
        obtain rfl := Option.some.inj hvalue
        rcases List.mem_append.mp hearlier with hbefore | hlast
        · exact UInt64.le_trans (hbelow earlier hbefore) (le_chooseCounter current floor)
        · rw [List.mem_singleton.mp hlast]
          exact UInt64.le_refl _
    cases file with
    | none => exact hcall 0 (by simp [hkept.fresh rfl]) rfl
    | some text =>
      obtain ⟨current, -, hstored⟩ := hkept.line text rfl
      exact hcall current (hkept.ahead current hstored) (nextCounter_of_stored path hstored floor)

/-- The counter that is stored at first counts as used. -/
theorem kept_run (hinitial : initial = none ∨ (stored initial).isSome = true)
    (hrun : Run (step path) Completed initial events returned file) :
    Kept ((stored initial).toList ++ returned) file := by
  refine hrun.invariant (fun returned file ↦ Kept ((stored initial).toList ++ returned) file) ?_ ?_
  · rw [List.append_nil]
    refine ⟨?_, fun text htext ↦ ?_, fun current hcurrent earlier hearlier ↦ ?_⟩
    · rintro rfl
      rfl
    · rw [htext] at hinitial ⊢
      obtain ⟨current, hcurrent⟩ := Option.isSome_iff_exists.mp (hinitial.resolve_left nofun)
      exact ⟨current, Option.mem_toList.mpr hcurrent, hcurrent⟩
    · rw [hcurrent, Option.toList_some, List.mem_singleton] at hearlier
      rw [hearlier]
      exact UInt64.le_refl _
  · intro returned file event file' emitted hkept hcompleted hstep
    rw [← List.append_assoc]
    exact kept_step hkept hcompleted hstep

/-! ### The number in a cut line -/

/-- The number that the first digits of a number make. -/
def leading (number written : ℕ) : ℕ :=
  Nat.ofDigitChars 10 ((Nat.toDigits 10 number).take written) 0

theorem leading_of_length_le {number written : ℕ}
    (h : (Nat.toDigits 10 number).length ≤ written) : leading number written = number := by
  rw [leading, List.take_of_length_le h, Nat.ofDigitChars_ten_toDigits]

/-- Every digit that is missing divides by ten. -/
theorem leading_mul_le (number written : ℕ) :
    10 ^ ((Nat.toDigits 10 number).length - written) * leading number written ≤ number := by
  have hsplit : Nat.ofDigitChars 10 ((Nat.toDigits 10 number).take written ++
      (Nat.toDigits 10 number).drop written) 0 = number := by
    rw [List.take_append_drop, Nat.ofDigitChars_ten_toDigits]
  rw [Nat.ofDigitChars_append, Nat.ofDigitChars_eq_ofDigitChars_zero, List.length_drop] at hsplit
  exact (Nat.le_add_right _ _).trans_eq hsplit

theorem leading_le (number written : ℕ) : leading number written ≤ number := by
  have hpow : 0 < 10 ^ ((Nat.toDigits 10 number).length - written) := Nat.pow_pos (by decide)
  exact (Nat.le_mul_of_pos_left _ hpow).trans (leading_mul_le number written)

/-- A cut line is behind the number before it if a digit is missing. -/
theorem le_leading_succ_iff (number : ℕ) {written : ℕ} (hwritten : 0 < written) :
    number ≤ leading (number + 1) written ↔
      (Nat.toDigits 10 (number + 1)).length ≤ written := by
  constructor
  · intro hle
    by_contra hmissing
    have hten : 10 ^ 1 ≤ 10 ^ ((Nat.toDigits 10 (number + 1)).length - written) :=
      Nat.pow_le_pow_right (by decide) (by omega)
    have hcut := (Nat.mul_le_mul_right _ hten).trans (leading_mul_le (number + 1) written)
    obtain rfl : number = 0 := by omega
    have hone : (Nat.toDigits 10 (0 + 1)).length = 1 := by decide
    omega
  · intro hlength
    rw [leading_of_length_le hlength]
    exact Nat.le_succ number

/-- The prefix of a line that holds some digit reads as the number that its digits make. -/
theorem stored_cut (counter : UInt64) {written : ℕ} (hwritten : 0 < written) :
    stored (some (String.ofList ((counterText counter).toList.take written))) =
      some (UInt64.ofNat (leading counter.toNat written)) := by
  set digits := (Nat.toDigits 10 counter.toNat).take written with hdigits
  have hall : ∀ digit ∈ digits, digit.isDigit := by
    intro digit hdigit
    exact isDigit_toDigits (List.mem_of_mem_take hdigit)
  have hne : digits ≠ [] := by
    simp [hdigits, hwritten.ne', Nat.toDigits_ne_nil]
  have htrim : trim ((counterText counter).toList.take written) = digits := by
    rw [toList_counterText, List.take_append, ← hdigits]
    cases written - (Nat.toDigits 10 counter.toNat).length with
    | zero => rw [List.take_zero, List.append_nil, trim_of_isDigit hall hne]
    | succ _ => rw [List.take_succ_cons, List.take_nil, trim_line hall hne]
  have hlt : leading counter.toNat written < 2 ^ 64 :=
    (leading_le _ _).trans_lt counter.toNat_lt
  rw [stored, Option.bind_some, String.toList_ofList, htrim, parseU64_of_isDigit hall hne hlt]
  rfl

/-! ### The next call -/

/-- An empty file stops every call until the file is deleted. -/
theorem calls_fail_of_empty {counters : List UInt64} {last : CounterFile}
    (hrun : Run (step path) (fun _ event ↦ event ≠ .delete) (some "") events counters last) :
    counters = [] ∧ last = some "" := by
  refine hrun.invariant (fun counters file ↦ counters = [] ∧ file = some "") ⟨rfl, rfl⟩ ?_
  intro counters file event file' emitted hempty hkept hstep
  obtain ⟨rfl, rfl⟩ := hempty
  rcases step_cases hstep with ⟨rfl, hsame⟩ | ⟨floor, current, -, hcurrent, -, -⟩
  · refine ⟨rfl, ?_⟩
    rcases hsame with rfl | rfl | ⟨hdelete, -⟩
    · rfl
    · rfl
    · exact absurd hdelete hkept
  · simp at hcurrent

/-- What the call reads from a cut line leads above the stored counter unless both the timestamp
and the number are too small. -/
theorem lt_chooseCounter_leading_iff {current floor later : UInt64} (hlater : floor < later)
    {written : ℕ} (hwritten : 0 < written) :
    current < chooseCounter
        (UInt64.ofNat (leading (chooseCounter current floor).toNat written)) later ↔
      current.toNat < 2 ^ 64 - 1 ∧
        (current < later ∨ (Nat.toDigits 10 (current.toNat + 1)).length ≤ written) := by
  have hcut := leading_le (chooseCounter current floor).toNat written
  have hbound := (chooseCounter current floor).toNat_lt
  have hlaterBound := later.toNat_lt
  have hchosen := toNat_chooseCounter current floor
  have hsucc := le_leading_succ_iff current.toNat hwritten
  rw [UInt64.lt_iff_toNat_lt] at hlater
  rw [UInt64.lt_iff_toNat_lt, UInt64.lt_iff_toNat_lt, toNat_chooseCounter,
    UInt64.toNat_ofNat_of_lt' (hcut.trans_lt hbound)]
  by_cases hahead : current.toNat < later.toNat
  · omega
  · by_cases hlast : current.toNat < 2 ^ 64 - 1
    · -- the timestamp of the dying call was no larger, so it wrote the successor
      have hnext : (chooseCounter current floor).toNat = current.toNat + 1 := by omega
      rw [hnext, ← hsucc]
      rw [hnext] at hcut
      omega
    · omega

theorem lt_chooseCounter_iff (current later : UInt64) :
    current < chooseCounter current later ↔ current.toNat < 2 ^ 64 - 1 := by
  have hbound := later.toNat_lt
  rw [UInt64.lt_iff_toNat_lt, toNat_chooseCounter]
  omega

/-- A number in the file after the crash decides the next counter. -/
theorem returns_iff_of_stored {current value later : UInt64} {file' : CounterFile}
    (hkept : Kept used file) (hused : current ∈ used) (hcurrent : stored file = some current)
    (hstored : stored file' = some value) :
    (∃ counter, (nextCounter path file' later false none).2 = .ok counter ∧
        ∀ earlier ∈ used, earlier < counter) ↔ current < chooseCounter value later := by
  rw [nextCounter_of_stored path hstored]
  constructor
  · intro hreturns
    obtain ⟨counter, hcounter, habove⟩ := hreturns
    rw [Except.ok.inj hcounter]
    exact habove current hused
  · intro hlt
    refine ⟨_, rfl, fun earlier hearlier ↦ ?_⟩
    exact UInt64.lt_of_le_of_lt (hkept.ahead current hcurrent earlier hearlier) hlt

theorem nextCounter_empty (path : String) (floor : UInt64) :
    (nextCounter path (some "") floor false none).2 =
      .error ("failed to parse counter file " ++ path ++ " as u64") := rfl

theorem readCounter_of_stored (path : String) {text : String} {current : UInt64}
    (h : stored (some text) = some current) : readCounter path (some text) false = .ok current := by
  have hparse : parseU64 (trim text.toList) = some current := h
  simp [readCounter, hparse]

/-- The call after a crash returns a counter above the one that was stored at first and all that
were returned since then exactly if the crash point leaves enough of the number. -/
theorem next_counter_after_crash_iff
    (hinitial : initial = none ∨ (stored initial).isSome = true)
    (hrun : Run (step path) Completed initial events returned file) {floor later : UInt64}
    (hlater : floor < later) (point : CrashPoint) :
    (∃ counter, (nextCounter path (crash path file floor point) later false none).2 = .ok counter ∧
        ∀ earlier ∈ (stored initial).toList ++ returned, earlier < counter) ↔
      Survives file later point := by
  have hkept := kept_run hinitial hrun
  cases file with
  | none =>
    rw [hkept.fresh rfl]
    cases point with
    | beforeTruncation => simp [crash, readCounter, nextCounter, writeCounter, Survives]
    | afterBytes written =>
      rcases Nat.eq_zero_or_pos written with rfl | hwritten
      · simp [crash, readCounter, Survives, nextCounter_empty]
      · have hstored := stored_cut (chooseCounter 0 floor) hwritten
        simp [crash, readCounter, Survives, hwritten, nextCounter_of_stored path hstored]
  | some text =>
    obtain ⟨current, hused, hcurrent⟩ := hkept.line text rfl
    cases point with
    | beforeTruncation =>
      simp only [crash, readCounter_of_stored path hcurrent]
      rw [returns_iff_of_stored hkept hused hcurrent hcurrent, lt_chooseCounter_iff]
      simp [Survives, hcurrent]
    | afterBytes written =>
      simp only [crash, readCounter_of_stored path hcurrent]
      rcases Nat.eq_zero_or_pos written with rfl | hwritten
      · simp [Survives, nextCounter_empty]
      · rw [returns_iff_of_stored hkept hused hcurrent (stored_cut _ hwritten),
          lt_chooseCounter_leading_iff hlater hwritten]
        simp [Survives, hwritten, hcurrent]

/-! ### A first counter -/

/-- The run of a first call with the timestamp 1000. -/
theorem run_first (hstep : step "alice.counter" initial (.call 1000 false none) =
    some (some (counterText 1000), some 1000)) :
    Run (step "alice.counter") Completed initial [.call 1000 false none] [1000]
      (some (counterText 1000)) :=
  Run.nil.snoc (by simp [Completed]) hstep

/-- The first call finds the counter that `keygen` wrote. -/
theorem next_counter_after_crash_first :
    ∃ counter, (nextCounter "alice.counter" (crash "alice.counter" (some (counterText 1000)) 2000
      (.afterBytes 2)) 3000 false none).2 = .ok counter ∧
        ∀ earlier ∈ [0, 1000], earlier < counter := by
  have hrun : Run (step "alice.counter") Completed (some "0\n") _ _ _ :=
    run_first (by decide +kernel)
  refine (next_counter_after_crash_iff (.inr (by decide)) hrun (by decide) (.afterBytes 2)).mpr ?_
  refine ⟨by decide, fun current hcurrent ↦ ?_⟩
  rw [stored_counterText] at hcurrent
  obtain rfl := Option.some.inj hcurrent
  exact ⟨by decide, .inl (by decide)⟩

/-- A crash right after the truncation leaves an empty file, and the next call fails. -/
theorem next_counter_disabled :
    ¬∀ (path : String) (events : List Event) (returned : List UInt64) (file : CounterFile)
        (floor later : UInt64) (point : CrashPoint),
      Run (step path) Completed none events returned file → floor < later →
        ∃ counter, (nextCounter path (crash path file floor point) later false none).2 =
          .ok counter ∧ ∀ earlier ∈ returned, earlier < counter := by
  intro hall
  obtain ⟨counter, hcounter, -⟩ := hall "alice.counter" _ _ _ 2000 3000 (.afterBytes 0)
    (run_first rfl) (by decide)
  have hempty : crash "alice.counter" (some (counterText 1000)) 2000 (.afterBytes 0) =
      some "" := by
    simp [crash, readCounter_of_stored "alice.counter" (stored_counterText 1000)]
  rw [hempty, nextCounter_empty] at hcounter
  cases hcounter

end Ghostbro.Client.Crash
