import Ghostbro.Relay.Wire
import Ghostbro.Server.Acceptance

/-!
# The counter of a client

`next_counter` reads the counter file of an identity, takes the larger of the successor of what it
holds and of the timestamp in milliseconds, and writes that back.  Either of the two makes the
counters increase: the successor while the file is kept, and the timestamp while the clock goes
forward.  The file may be gone, hold no number, or fail to be read or written; the one line of a
counter is written by a single call, so a failing write leaves the file as it was or empty.
-/

namespace Ghostbro.Client

open Machine

/-! ### The text of a counter -/

/-- `str::trim`. -/
def trim (text : List Char) : List Char :=
  ((text.dropWhile Relay.isWhitespace).reverse.dropWhile Relay.isWhitespace).reverse

/-- The digits after the plus sign that `u64::from_str` accepts. -/
def unsignedDigits : List Char → List Char
  | '+' :: digits => digits
  | digits => digits

/-- `u64::from_str`. -/
def parseU64 (text : List Char) : Option UInt64 :=
  let digits := unsignedDigits text
  if digits ≠ [] ∧ digits.all Char.isDigit = true ∧ Nat.ofDigitChars 10 digits 0 < 2 ^ 64 then
    some (UInt64.ofNat (Nat.ofDigitChars 10 digits 0))
  else none

/-- The line that `next_counter` writes. -/
def counterText (counter : UInt64) : String := toString counter.toNat ++ "\n"

theorem unsignedDigits_of_isDigit {digits : List Char} (h : ∀ digit ∈ digits, digit.isDigit) :
    unsignedDigits digits = digits := by
  unfold unsignedDigits
  split
  · rename_i rest
    have hplus := h '+' List.mem_cons_self
    cases hplus
  · rfl

theorem not_isWhitespace_of_isDigit {symbol : Char} (h : symbol.isDigit) :
    Relay.isWhitespace symbol = false := by
  have hdigit : 48 ≤ symbol.toNat ∧ symbol.toNat ≤ 57 := by
    simpa [Char.isDigit, UInt32.le_iff_toNat_le] using h
  simp only [Relay.isWhitespace, Bool.or_eq_false_iff, Bool.and_eq_false_iff,
    decide_eq_false_iff_not]
  omega

theorem dropWhile_of_isDigit {digits : List Char} (hdigits : ∀ digit ∈ digits, digit.isDigit)
    (hne : digits ≠ []) (rest : List Char) :
    (digits ++ rest).dropWhile Relay.isWhitespace = digits ++ rest := by
  obtain ⟨digit, digits, rfl⟩ := List.exists_cons_of_ne_nil hne
  have hdigit := not_isWhitespace_of_isDigit (hdigits digit List.mem_cons_self)
  exact List.dropWhile_cons_of_neg (by simp [hdigit])

/-- A text of digits has nothing to trim. -/
theorem trim_of_isDigit {digits : List Char} (hdigits : ∀ digit ∈ digits, digit.isDigit)
    (hne : digits ≠ []) : trim digits = digits := by
  have hreversed : ∀ digit ∈ digits.reverse, digit.isDigit := by
    intro digit hdigit
    exact hdigits digit (List.mem_reverse.mp hdigit)
  have hfront := dropWhile_of_isDigit hdigits hne []
  have hback := dropWhile_of_isDigit hreversed (by simpa using hne) []
  rw [List.append_nil] at hfront hback
  rw [trim, hfront, hback, List.reverse_reverse]

/-- Trimming a line of digits takes off the line break. -/
theorem trim_line {digits : List Char} (hdigits : ∀ digit ∈ digits, digit.isDigit)
    (hne : digits ≠ []) : trim (digits ++ ['\n']) = digits := by
  have hfront := dropWhile_of_isDigit hdigits hne []
  have hbreak : ('\n' :: digits.reverse).dropWhile Relay.isWhitespace =
      digits.reverse.dropWhile Relay.isWhitespace := List.dropWhile_cons_of_pos (by decide)
  have htrim := trim_of_isDigit hdigits hne
  rw [List.append_nil] at hfront
  rw [trim, hfront] at htrim
  rw [trim, dropWhile_of_isDigit hdigits hne, List.reverse_append, List.reverse_singleton,
    List.singleton_append, hbreak, htrim]

theorem isDigit_toDigits {number : ℕ} {digit : Char} (h : digit ∈ Nat.toDigits 10 number) :
    digit.isDigit :=
  Nat.isDigit_of_mem_toDigits (by decide) (by decide) h

theorem toList_counterText (counter : UInt64) :
    (counterText counter).toList = Nat.toDigits 10 counter.toNat ++ ['\n'] := by
  rw [counterText, String.toList_append]
  congr 1
  exact Nat.toList_repr

theorem parseU64_of_isDigit {digits : List Char} (hdigits : ∀ digit ∈ digits, digit.isDigit)
    (hne : digits ≠ []) (hlt : Nat.ofDigitChars 10 digits 0 < 2 ^ 64) :
    parseU64 digits = some (UInt64.ofNat (Nat.ofDigitChars 10 digits 0)) := by
  rw [parseU64, unsignedDigits_of_isDigit hdigits,
    if_pos ⟨hne, List.all_eq_true.mpr hdigits, hlt⟩]

/-- The text of a counter reads back. -/
theorem parseU64_counterText (counter : UInt64) :
    parseU64 (trim (counterText counter).toList) = some counter := by
  have hvalue : Nat.ofDigitChars 10 (Nat.toDigits 10 counter.toNat) 0 = counter.toNat :=
    Nat.ofDigitChars_ten_toDigits
  have hlt := counter.toNat_lt
  rw [← hvalue] at hlt
  rw [toList_counterText, trim_line (fun _ ↦ isDigit_toDigits) Nat.toDigits_ne_nil,
    parseU64_of_isDigit (fun _ ↦ isDigit_toDigits) Nat.toDigits_ne_nil hlt, hvalue,
    UInt64.ofNat_toNat]

/-! ### `next_counter` -/

/-- The counter file of an identity, if there is one. -/
abbrev CounterFile := Option String

/-- The number in the file, if it holds one. -/
def stored (file : CounterFile) : Option UInt64 := file.bind fun text ↦ parseU64 (trim text.toList)

/-- The call that fails when the counter is written. -/
inductive WriteFault
  | openFile
  /-- The file has been truncated. -/
  | write
  deriving DecidableEq

/-- The first half of `next_counter`: what the file says was used last. -/
def readCounter (path : String) (file : CounterFile) (readFails : Bool) : Except String UInt64 :=
  if readFails then .error ("failed to read " ++ path)
  else
    match file with
    | none => .ok 0
    | some text =>
      match parseU64 (trim text.toList) with
      | none => .error ("failed to parse counter file " ++ path ++ " as u64")
      | some current => .ok current

/-- The choice of the next counter. -/
def chooseCounter (current floor : UInt64) : UInt64 := max (saturatingAdd current 1) floor

/-- The second half of `next_counter`. -/
def writeCounter (path : String) (file : CounterFile) (next : UInt64) (fault : Option WriteFault) :
    CounterFile × Except String UInt64 :=
  match fault with
  | none => (some (counterText next), .ok next)
  | some .openFile => (file, .error ("failed to write counter file " ++ path))
  | some .write => (some "", .error ("failed to write counter file " ++ path))

/-- `next_counter`. -/
def nextCounter (path : String) (file : CounterFile) (floor : UInt64) (readFails : Bool)
    (fault : Option WriteFault) : CounterFile × Except String UInt64 :=
  match readCounter path file readFails with
  | .error error => (file, .error error)
  | .ok current => writeCounter path file (chooseCounter current floor) fault

@[simp]
theorem stored_counterText (counter : UInt64) :
    stored (some (counterText counter)) = some counter := by
  rw [stored, Option.bind_some, parseU64_counterText]

@[simp]
theorem stored_none : stored none = none := rfl

@[simp]
theorem stored_empty : stored (some "") = none := rfl

theorem toNat_chooseCounter (current floor : UInt64) :
    (chooseCounter current floor).toNat =
      max (min (current.toNat + 1) (2 ^ 64 - 1)) floor.toNat := by
  have hmax (a b : UInt64) : (max a b).toNat = max a.toNat b.toNat := by
    change (if a ≤ b then b else a).toNat = _
    split_ifs with hle
    · exact (max_eq_right (UInt64.le_iff_toNat_le.mp hle)).symm
    · exact (max_eq_left (not_le.mp (mt UInt64.le_iff_toNat_le.mpr hle)).le).symm
  rw [chooseCounter, hmax, toNat_saturatingAdd]
  rfl

/-- The floor is used unless the file is ahead of it. -/
theorem chooseCounter_of_lt {current floor : UInt64} (h : current < floor) :
    chooseCounter current floor = floor := by
  have hlt := UInt64.lt_iff_toNat_lt.mp h
  have hbound := floor.toNat_lt
  apply UInt64.toNat_inj.mp
  rw [toNat_chooseCounter]
  omega

/-- A counter is new unless the last one was the largest word. -/
theorem lt_chooseCounter {current : UInt64} (h : current.toNat < 2 ^ 64 - 1) (floor : UInt64) :
    current < chooseCounter current floor := by
  rw [UInt64.lt_iff_toNat_lt, toNat_chooseCounter]
  omega

theorem chooseCounter_pos (current floor : UInt64) : 0 < chooseCounter current floor := by
  rw [UInt64.lt_iff_toNat_lt, toNat_chooseCounter]
  exact lt_max_of_lt_left (lt_min (Nat.succ_pos _) (by decide))

variable {path : String} {file file' : CounterFile} {current floor counter : UInt64}
  {readFails : Bool} {fault : Option WriteFault}

theorem readCounter_ok (h : readCounter path file readFails = .ok current) :
    file = none ∧ current = 0 ∨ stored file = some current := by
  unfold readCounter at h
  split_ifs at h
  cases file with
  | none => exact .inl ⟨rfl, (Except.ok.inj h).symm⟩
  | some text =>
    dsimp only at h
    split at h
    · cases h
    · rename_i value hparse
      rw [← Except.ok.inj h]
      exact .inr hparse

/-- A call fails and leaves the file as it was or empty, or it leaves the counter it returns. -/
theorem nextCounter_cases (path : String) (file : CounterFile) (floor : UInt64)
    (readFails : Bool) (fault : Option WriteFault) :
    (∃ error file', nextCounter path file floor readFails fault = (file', .error error) ∧
        (file' = file ∨ file' = some "")) ∨
      ∃ current, (file = none ∧ current = 0 ∨ stored file = some current) ∧
        nextCounter path file floor readFails fault =
          (some (counterText (chooseCounter current floor)),
            .ok (chooseCounter current floor)) := by
  unfold nextCounter
  cases hread : readCounter path file readFails with
  | error error => exact .inl ⟨error, file, rfl, .inl rfl⟩
  | ok current =>
    cases fault with
    | none => exact .inr ⟨current, readCounter_ok hread, rfl⟩
    | some fault =>
      cases fault with
      | openFile => exact .inl ⟨_, file, rfl, .inl rfl⟩
      | write => exact .inl ⟨_, some "", rfl, .inr rfl⟩

/-- A call without a fault returns its choice and leaves it in the file. -/
theorem nextCounter_of_stored (path : String) (h : stored file = some current) (floor : UInt64) :
    nextCounter path file floor false none =
      (some (counterText (chooseCounter current floor)), .ok (chooseCounter current floor)) := by
  obtain ⟨text, rfl, hparse⟩ := Option.bind_eq_some_iff.mp h
  simp [nextCounter, readCounter, hparse, writeCounter]

/-! ### Runs of one client -/

inductive Event
  /-- A call of `next_counter` with the timestamp as its floor. -/
  | call (floor : UInt64) (readFails : Bool) (fault : Option WriteFault)
  /-- The counter file is lost. -/
  | delete

/-- The timestamp of a call. -/
def Event.floor? : Event → Option UInt64
  | .call floor _ _ => some floor
  | .delete => none

/-- The timestamps of the calls, in order. -/
def floors (events : List Event) : List UInt64 := events.filterMap Event.floor?

/-- One call or loss; a successful call emits its counter. -/
def step (path : String) : Step CounterFile Event UInt64
  | file, .call floor readFails fault =>
    let called := nextCounter path file floor readFails fault
    some (called.1, called.2.toOption)
  | _, .delete => some (none, none)

/-- What one step leaves in the file and emits. -/
theorem step_cases {event : Event} {emitted : Option UInt64}
    (hstep : step path file event = some (file', emitted)) :
    (emitted = none ∧ (file' = file ∨ file' = some "" ∨ event = .delete ∧ file' = none)) ∨
      ∃ floor current, event.floor? = some floor ∧
        (file = none ∧ current = 0 ∨ stored file = some current) ∧
        file' = some (counterText (chooseCounter current floor)) ∧
        emitted = some (chooseCounter current floor) := by
  cases event with
  | call floor readFails fault =>
    rcases nextCounter_cases path file floor readFails fault with
      ⟨error, file'', heq, hfile⟩ | ⟨current, hcurrent, heq⟩
    · rw [step, heq] at hstep
      obtain ⟨rfl, rfl⟩ := Prod.mk.inj (Option.some.inj hstep)
      rcases hfile with rfl | rfl
      · exact .inl ⟨rfl, .inl rfl⟩
      · exact .inl ⟨rfl, .inr (.inl rfl)⟩
    · rw [step, heq] at hstep
      obtain ⟨rfl, rfl⟩ := Prod.mk.inj (Option.some.inj hstep)
      exact .inr ⟨floor, current, rfl, hcurrent, rfl, rfl⟩
  | delete =>
    obtain ⟨rfl, rfl⟩ := Prod.mk.inj (Option.some.inj hstep)
    exact .inl ⟨rfl, .inr (.inr ⟨rfl, rfl⟩)⟩

/-! ### A clock that goes forward -/

/-- Under a clock that goes forward every counter is its timestamp, whatever happens to the
file. -/
theorem counters_eq_floors {initial last : CounterFile} {events : List Event}
    {counters : List UInt64} (hrun : Run (step path) unrestricted initial events counters last)
    (hpositive : ∀ floor ∈ floors events, 0 < floor)
    (hincreasing : (floors events).Pairwise (· < ·))
    (hinitial : ∀ value, stored initial = some value → ∀ floor ∈ floors events, value < floor) :
    counters.Sublist (floors events) ∧
      ∀ value, stored last = some value → value ∈ floors events ∨ stored initial = some value := by
  induction hrun with
  | nil => exact ⟨List.nil_sublist _, fun value hvalue ↦ .inr hvalue⟩
  | @snoc events counters file file' event emitted _ _ hstep ih =>
    have hfloors : floors (events ++ [event]) = floors events ++ event.floor?.toList := by
      rw [floors, List.filterMap_append]
      rfl
    rw [hfloors] at hpositive hincreasing hinitial ⊢
    obtain ⟨hincreasing, -, habove⟩ := List.pairwise_append.mp hincreasing
    obtain ⟨hcounters, hfile⟩ := ih
      (fun floor h ↦ hpositive floor (List.mem_append_left _ h)) hincreasing
      (fun value hvalue floor h ↦ hinitial value hvalue floor (List.mem_append_left _ h))
    rcases step_cases hstep with
      ⟨rfl, hsame⟩ | ⟨floor, current, hfloor, hcurrent, rfl, rfl⟩
    · refine ⟨?_, fun value hvalue ↦ ?_⟩
      · rw [Option.toList_none, List.append_nil]
        exact hcounters.trans (List.sublist_append_left _ _)
      · rcases hsame with rfl | rfl | ⟨-, rfl⟩
        · exact (hfile value hvalue).imp_left (List.mem_append_left _)
        · cases hvalue
        · cases hvalue
    · rw [hfloor, Option.toList_some] at hpositive hinitial habove ⊢
      have hlast : floor ∈ floors events ++ [floor] := by simp
      have hlt : current < floor := by
        rcases hcurrent with ⟨-, rfl⟩ | hstored
        · exact hpositive floor hlast
        · rcases hfile current hstored with hmem | hmem
          · exact habove current hmem floor (List.mem_singleton_self _)
          · exact hinitial current hmem floor hlast
      rw [chooseCounter_of_lt hlt]
      refine ⟨hcounters.append (List.Sublist.refl _), fun value hvalue ↦ .inl ?_⟩
      rw [stored_counterText] at hvalue
      rw [← Option.some.inj hvalue]
      exact hlast

/-! ### A file that is kept -/

/-- The file is not lost, and holds no number whose successor saturates. -/
def KeepsState (file : CounterFile) : Event → Prop
  | .call _ _ _ => ∀ value, stored file = some value → value.toNat < 2 ^ 64 - 1
  | .delete => False

/-- While the file is kept, its number is at least every counter, and the counters increase. -/
structure Ahead (counters : List UInt64) (file : CounterFile) : Prop where
  fresh : file = none → counters = []
  ahead : ∀ value, stored file = some value → ∀ counter ∈ counters, counter ≤ value
  increasing : counters.Pairwise (· < ·)

theorem ahead_step {counters : List UInt64} {event : Event} {emitted : Option UInt64}
    (h : Ahead counters file) (hkeeps : KeepsState file event)
    (hstep : step path file event = some (file', emitted)) :
    Ahead (counters ++ emitted.toList) file' := by
  have hcall : event ≠ .delete := by
    rintro rfl
    exact hkeeps
  rcases step_cases hstep with ⟨rfl, hsame⟩ | ⟨floor, current, hfloor, hcurrent, rfl, rfl⟩
  · rw [Option.toList_none, List.append_nil]
    rcases hsame with rfl | rfl | ⟨rfl, -⟩
    · exact h
    · exact ⟨by simp, by simp, h.increasing⟩
    · exact absurd rfl hcall
  · have hbelow : ∀ counter ∈ counters, counter < chooseCounter current floor := by
      intro counter hcounter
      rcases hcurrent with ⟨hnone, -⟩ | hstored
      · rw [h.fresh hnone] at hcounter
        cases hcounter
      · have hlimit : current.toNat < 2 ^ 64 - 1 := by
          cases event with
          | call => exact hkeeps current hstored
          | delete => exact absurd rfl hcall
        exact UInt64.lt_of_le_of_lt (h.ahead current hstored counter hcounter)
          (lt_chooseCounter hlimit floor)
    refine ⟨by simp, ?_, ?_⟩
    · intro value hvalue counter hcounter
      rw [stored_counterText] at hvalue
      obtain rfl := Option.some.inj hvalue
      rcases List.mem_append.mp hcounter with hmem | hmem
      · exact UInt64.le_of_lt (hbelow counter hmem)
      · rw [List.mem_singleton.mp hmem]
        exact UInt64.le_refl _
    · rw [Option.toList_some]
      apply List.pairwise_append.mpr
      refine ⟨h.increasing, List.pairwise_singleton _ _, fun counter hcounter next hnext ↦ ?_⟩
      rw [List.mem_singleton.mp hnext]
      exact hbelow counter hcounter

theorem counters_positive {initial last : CounterFile} {events : List Event}
    {counters : List UInt64} {guard : CounterFile → Event → Prop}
    (hrun : Run (step path) guard initial events counters last) :
    ∀ counter ∈ counters, 0 < counter := by
  apply hrun.invariant (fun counters _ ↦ ∀ counter ∈ counters, 0 < counter)
  · simp
  · intro counters file event file' emitted h _ hstep counter hcounter
    rcases List.mem_append.mp hcounter with hmem | hmem
    · exact h counter hmem
    · rcases step_cases hstep with ⟨rfl, -⟩ | ⟨floor, current, -, -, -, rfl⟩
      · cases hmem
      · rw [List.mem_singleton.mp hmem]
        exact chooseCounter_pos current floor

/-! ### The server -/

/-- What the client chooses for a packet; `build` draws the padding and the secret. -/
structure Sent where
  mode : SpaMode
  timestampMs : UInt64
  counter : UInt64
  allowIp : SpaAllowIp
  padding : Bytes
  ephemeralSecret : Octets 32

/-- `SpaPacket::build` for a server. -/
def Sent.payload (crypto : Crypto) (signingKey serverPrivate : Octets 32) (sent : Sent) : Bytes :=
  SpaPacket.buildWithPadding crypto signingKey sent.mode sent.timestampMs sent.counter sent.allowIp
    sent.padding (crypto.x25519Public serverPrivate) sent.ephemeralSecret

inductive Delivery
  /-- A packet of the client. -/
  | own (sent : Sent) (source : Ipv4Addr) (nowMs : UInt64) (fault : Option SaveFault)
  /-- Anything else that reaches the verifier. -/
  | other (payload : Bytes) (source : Ipv4Addr) (nowMs : UInt64) (fault : Option SaveFault)
  | reloadClients (clients : List AuthorizedClient)

structure Server where
  verifier : SpaVerifier
  files : FileSystem

variable (crypto : Crypto) (toml : Toml) (signingKey serverPrivate : Octets 32)

/-- One delivery; the output is the answer to a packet of the client. -/
def deliver : Step Server Delivery (Except SpaVerifyError SpaAccept)
  | server, .own sent source nowMs fault =>
    let outcome := server.verifier.verify crypto toml server.files
      (sent.payload crypto signingKey serverPrivate) source nowMs fault
    some (⟨outcome.verifier, outcome.files⟩, some outcome.result)
  | server, .other payload source nowMs fault =>
    let outcome := server.verifier.verify crypto toml server.files payload source nowMs fault
    some (⟨outcome.verifier, outcome.files⟩, none)
  | server, .reloadClients clients =>
    some ({ server with verifier := (server.verifier.reloadClients clients).1 }, none)

/-- The key identifier of the client. -/
abbrev clientKeyId : KeyId := SpaPacket.keyIdForPublicKey crypto (crypto.verifyingKey signingKey)

/-- The padding of `build` is short, and nobody else authenticates as the client. -/
def FromClient (server : Server) : Delivery → Prop
  | .own sent _ _ _ => sent.padding.length ≤ 33
  | .other payload source nowMs _ => ∀ packet client,
    server.verifier.authenticate crypto payload source nowMs = .ok (packet, client) →
      packet.keyId ≠ clientKeyId crypto signingKey
  | .reloadClients _ => True

def Delivery.counter? : Delivery → Option UInt64
  | .own sent _ _ _ => some sent.counter
  | .other _ _ _ _ => none
  | .reloadClients _ => none

/-- The counters of the client's packets, in the order of their delivery. -/
def deliveredCounters (deliveries : List Delivery) : List UInt64 :=
  deliveries.filterMap Delivery.counter?

/-- A server whose mark for the client is below the first counter answers no packet that carries
one of these counters, in their order, as a replay; packets may be lost on the way. -/
def NeverReplayed (counters : List UInt64) : Prop :=
  ∀ start deliveries answers last,
    start.verifier.serverStaticPrivate = serverPrivate →
    (∀ first ∈ counters.head?,
      start.verifier.highestCounter (clientKeyId crypto signingKey) < first) →
    Run (deliver crypto toml signingKey serverPrivate) (FromClient crypto signingKey) start
      deliveries answers last →
    (deliveredCounters deliveries).Sublist counters →
    ∀ answer ∈ answers, answer ≠ .error .replayedCounter

variable {crypto toml signingKey serverPrivate}

theorem authenticate_ne_replayed {verifier : SpaVerifier} {payload : Bytes} {source : Ipv4Addr}
    {nowMs : UInt64} :
    verifier.authenticate crypto payload source nowMs ≠ .error .replayedCounter := by
  intro h
  unfold SpaVerifier.authenticate at h
  split at h
  · cases h
  · split at h
    · cases h
    · split at h
      · cases h
      · split_ifs at h <;> cases h

/-- Only the comparison with the mark is answered as a replay. -/
theorem verify_ne_replayed {verifier : SpaVerifier} {files : FileSystem} {payload : Bytes}
    {source : Ipv4Addr} {nowMs : UInt64} {fault : Option SaveFault}
    (h : ∀ packet client, verifier.authenticate crypto payload source nowMs = .ok (packet, client) →
      verifier.highestCounter packet.keyId < packet.counter) :
    (verifier.verify crypto toml files payload source nowMs fault).result ≠
      .error .replayedCounter := by
  unfold SpaVerifier.verify
  cases hauth : verifier.authenticate crypto payload source nowMs with
  | error error =>
    intro heq
    rw [Except.error.inj heq] at hauth
    exact authenticate_ne_replayed hauth
  | ok authenticated =>
    obtain ⟨packet, client⟩ := authenticated
    dsimp only
    rw [if_neg (UInt64.not_le.mpr (h packet client hauth))]
    intro heq
    split at heq
    · rename_i error hpersist
      unfold SpaVerifier.persistCounters at hpersist
      rw [Except.error.inj heq] at hpersist
      split at hpersist
      · cases hpersist
      · cases hsave : (saveCounterState toml files _ (verifier.recordCounter packet).highestCounters
            fault).2 with
        | error message =>
          dsimp only at hpersist
          rw [hsave] at hpersist
          cases hpersist
        | ok _ =>
          dsimp only at hpersist
          rw [hsave] at hpersist
          cases hpersist
    · cases heq

/-- A packet of the client that authenticates carries the client's key and its own counter. -/
theorem packet_of_own (hcorrect : crypto.Correct) {verifier : SpaVerifier}
    (hprivate : verifier.serverStaticPrivate = serverPrivate) {sent : Sent}
    (hpadding : sent.padding.length ≤ 33) {source : Ipv4Addr} {nowMs : UInt64}
    {packet : SpaPacket} {client : AuthorizedClient}
    (h : verifier.authenticate crypto (sent.payload crypto signingKey serverPrivate) source nowMs =
      .ok (packet, client)) :
    packet.keyId = clientKeyId crypto signingKey ∧ packet.counter = sent.counter := by
  obtain ⟨-, -, hopen⟩ := SpaPacket.openWire_buildWithPadding hcorrect signingKey sent.mode
    sent.timestampMs sent.counter sent.allowIp hpadding serverPrivate sent.ephemeralSecret
  have hopened := (SpaVerifier.authenticate_ok h).1
  rw [hprivate] at hopened
  obtain rfl := Except.ok.inj (hopened.symm.trans hopen)
  exact ⟨rfl, rfl⟩

/-- A verify call keeps the mark of a key or moves it to the counter of an authenticated packet. -/
theorem highestCounter_verify (crypto : Crypto) (toml : Toml) (verifier : SpaVerifier)
    (files : FileSystem) (payload : Bytes) (source : Ipv4Addr) (nowMs : UInt64)
    (fault : Option SaveFault) (keyId : KeyId) :
    let next := (verifier.verify crypto toml files payload source nowMs fault).verifier
    next.serverStaticPrivate = verifier.serverStaticPrivate ∧
      (next.highestCounter keyId = verifier.highestCounter keyId ∨
        ∃ packet client, verifier.authenticate crypto payload source nowMs = .ok (packet, client) ∧
          packet.keyId = keyId ∧ next.highestCounter keyId = packet.counter) := by
  have hrecord {packet : SpaPacket} {client : AuthorizedClient}
      (hauth : verifier.authenticate crypto payload source nowMs = .ok (packet, client)) :
      (verifier.recordCounter packet).highestCounter keyId = verifier.highestCounter keyId ∨
        ∃ packet' client', verifier.authenticate crypto payload source nowMs =
          .ok (packet', client') ∧ packet'.keyId = keyId ∧
            (verifier.recordCounter packet).highestCounter keyId = packet'.counter := by
    rw [SpaVerifier.highestCounter_recordCounter]
    split_ifs with hkey
    · exact .inr ⟨packet, client, hauth, hkey.symm, rfl⟩
    · exact .inl rfl
  dsimp only
  rcases SpaVerifier.verify_cases crypto toml verifier files payload source nowMs fault with
    ⟨error, heq⟩ | ⟨packet, client, hauth, -, ⟨error, -, heq⟩ | ⟨-, heq⟩⟩
  · rw [heq]
    exact ⟨rfl, .inl rfl⟩
  · rw [heq]
    exact ⟨rfl, hrecord hauth⟩
  · rw [heq]
    exact ⟨rfl, hrecord hauth⟩

/-- The mark of the client while its packets are delivered. -/
structure Marked (serverPrivate : Octets 32) (keyId : KeyId) (mark : UInt64)
    (delivered : List UInt64) (server : Server) : Prop where
  serverStaticPrivate : server.verifier.serverStaticPrivate = serverPrivate
  mark : server.verifier.highestCounter keyId = mark ∨
    server.verifier.highestCounter keyId ∈ delivered

/-- A delivered counter above the mark and above all delivered ones is not answered as a replay. -/
theorem marked_step (hcorrect : crypto.Correct) {mark : UInt64} {delivered : List UInt64}
    {server next : Server} {delivery : Delivery}
    {emitted : Option (Except SpaVerifyError SpaAccept)}
    (h : Marked serverPrivate (clientKeyId crypto signingKey) mark delivered server)
    (hguard : FromClient crypto signingKey server delivery)
    (habove : ∀ counter ∈ delivery.counter?, mark < counter ∧
      ∀ earlier ∈ delivered, earlier < counter)
    (hstep : deliver crypto toml signingKey serverPrivate server delivery =
      some (next, emitted)) :
    Marked serverPrivate (clientKeyId crypto signingKey) mark
        (delivered ++ delivery.counter?.toList) next ∧
      ∀ answer ∈ emitted, answer ≠ .error .replayedCounter := by
  cases delivery with
  | own sent source nowMs fault =>
    obtain ⟨rfl, rfl⟩ := Prod.mk.inj (Option.some.inj hstep)
    obtain ⟨hmark, hdelivered⟩ := habove sent.counter rfl
    have hfresh : server.verifier.highestCounter (clientKeyId crypto signingKey) <
        sent.counter := by
      rcases h.mark with hold | hold
      · rw [hold]
        exact hmark
      · exact hdelivered _ hold
    obtain ⟨hsame, hmoves⟩ := highestCounter_verify crypto toml server.verifier server.files
      (sent.payload crypto signingKey serverPrivate) source nowMs fault
      (clientKeyId crypto signingKey)
    refine ⟨⟨hsame.trans h.serverStaticPrivate, ?_⟩, ?_⟩
    · rcases hmoves with hkept | ⟨packet, client, hauth, -, hmoved⟩
      · rw [hkept]
        exact h.mark.imp_right (List.mem_append_left _)
      · rw [hmoved, (packet_of_own hcorrect h.serverStaticPrivate hguard hauth).2]
        exact .inr (List.mem_append_right _ (List.mem_singleton_self _))
    · intro answer hanswer
      obtain rfl := Option.some.inj hanswer
      apply verify_ne_replayed
      intro packet client hauth
      obtain ⟨hkey, hcounter⟩ := packet_of_own hcorrect h.serverStaticPrivate hguard hauth
      rw [hkey, hcounter]
      exact hfresh
  | other payload source nowMs fault =>
    obtain ⟨rfl, rfl⟩ := Prod.mk.inj (Option.some.inj hstep)
    obtain ⟨hsame, hmoves⟩ := highestCounter_verify crypto toml server.verifier server.files
      payload source nowMs fault (clientKeyId crypto signingKey)
    rw [Delivery.counter?, Option.toList_none, List.append_nil]
    refine ⟨⟨hsame.trans h.serverStaticPrivate, ?_⟩, by simp⟩
    rcases hmoves with hkept | ⟨packet, client, hauth, hkey, -⟩
    · rw [hkept]
      exact h.mark
    · exact absurd hkey (hguard packet client hauth)
  | reloadClients clients =>
    obtain ⟨rfl, rfl⟩ := Prod.mk.inj (Option.some.inj hstep)
    rw [Delivery.counter?, Option.toList_none, List.append_nil]
    exact ⟨⟨h.serverStaticPrivate, h.mark⟩, by simp⟩

/-- Increasing counters above the mark of the server are never answered as replays. -/
theorem neverReplayed_of_increasing (hcorrect : crypto.Correct) {counters : List UInt64}
    (hincreasing : counters.Pairwise (· < ·)) :
    NeverReplayed crypto toml signingKey serverPrivate counters := by
  intro start deliveries answers last hprivate hfirst hrun hdelivered
  set mark := start.verifier.highestCounter (clientKeyId crypto signingKey) with hmark
  have habove : ∀ counter ∈ counters, mark < counter := by
    cases counters with
    | nil => simp
    | cons first rest =>
      intro counter hcounter
      have hmarkFirst := hfirst first rfl
      rcases List.mem_cons.mp hcounter with rfl | hmem
      · exact hmarkFirst
      · exact UInt64.lt_trans hmarkFirst ((List.pairwise_cons.mp hincreasing).1 counter hmem)
  have hpairwise : (deliveredCounters deliveries).Pairwise (· < ·) := hincreasing.sublist hdelivered
  have hbelow : ∀ counter ∈ deliveredCounters deliveries, mark < counter :=
    fun counter h ↦ habove counter (hdelivered.subset h)
  suffices hboth : Marked serverPrivate (clientKeyId crypto signingKey) mark
      (deliveredCounters deliveries) last ∧
        ∀ answer ∈ answers, answer ≠ .error .replayedCounter from hboth.2
  clear hdelivered
  induction hrun with
  | nil => exact ⟨⟨hprivate, .inl rfl⟩, by simp⟩
  | @snoc deliveries answers server next delivery emitted _ hguard hstep ih =>
    have happend : deliveredCounters (deliveries ++ [delivery]) =
        deliveredCounters deliveries ++ delivery.counter?.toList := by
      rw [deliveredCounters, List.filterMap_append]
      rfl
    rw [happend] at hpairwise hbelow ⊢
    obtain ⟨hpairwise, -, hlater⟩ := List.pairwise_append.mp hpairwise
    obtain ⟨hmarked, hanswers⟩ := ih hpairwise fun counter h ↦
      hbelow counter (List.mem_append_left _ h)
    obtain ⟨hnext, hanswer⟩ := marked_step hcorrect hmarked hguard
      (fun counter hcounter ↦ ⟨hbelow counter (List.mem_append_right _
        (Option.mem_toList.mpr hcounter)), fun earlier hearlier ↦
          hlater earlier hearlier counter (Option.mem_toList.mpr hcounter)⟩) hstep
    refine ⟨hnext, fun answer h ↦ ?_⟩
    rcases List.mem_append.mp h with hmem | hmem
    · exact hanswers answer hmem
    · exact hanswer answer (Option.mem_toList.mp hmem)

/-! ### Both mechanisms -/

/-- For every run of calls on one counter file: under positive timestamps that increase and stay
below `2 ^ 64 - 1`, with no file at first or one that holds less than each of them, and with losses
of the file anywhere, the counters increase; and under any timestamps, while the file is not lost
and holds less than `2 ^ 64 - 1`, the counters increase.  All counters are positive, and a server
that gets the packets in order never answers one as a replay. -/
theorem counters_survive_state_loss (crypto : Crypto) (hcorrect : crypto.Correct) (toml : Toml)
    (signingKey serverPrivate : Octets 32) (path : String) (initial last : CounterFile)
    (events : List Event) (counters : List UInt64) :
    (Run (step path) unrestricted initial events counters last →
      (∀ floor ∈ floors events, 0 < floor ∧ floor.toNat < 2 ^ 64 - 1) →
      (floors events).Pairwise (· < ·) →
      (initial = none ∨ ∃ value, stored initial = some value ∧
        ∀ floor ∈ (floors events).head?, value < floor) →
      counters.Pairwise (· < ·) ∧ (∀ counter ∈ counters, 0 < counter) ∧
        NeverReplayed crypto toml signingKey serverPrivate counters) ∧
    (Run (step path) KeepsState initial events counters last →
      counters.Pairwise (· < ·) ∧ (∀ counter ∈ counters, 0 < counter) ∧
        NeverReplayed crypto toml signingKey serverPrivate counters) := by
  constructor
  · intro hrun hfloors hincreasing hinitial
    have hbelow : ∀ value, stored initial = some value →
        ∀ floor ∈ floors events, value < floor := by
      intro value hvalue floor hfloor
      rcases hinitial with rfl | ⟨value', hvalue', hhead⟩
      · cases hvalue
      · obtain rfl := Option.some.inj (hvalue.symm.trans hvalue')
        cases hlist : floors events with
        | nil =>
          rw [hlist] at hfloor
          cases hfloor
        | cons first rest =>
          rw [hlist] at hfloor hincreasing hhead
          have hfirst := hhead first rfl
          rcases List.mem_cons.mp hfloor with rfl | hmem
          · exact hfirst
          · exact UInt64.lt_trans hfirst ((List.pairwise_cons.mp hincreasing).1 floor hmem)
    have hsublist := (counters_eq_floors hrun (fun floor h ↦ (hfloors floor h).1) hincreasing
      hbelow).1
    have hcounters := hincreasing.sublist hsublist
    exact ⟨hcounters, counters_positive hrun, neverReplayed_of_increasing hcorrect hcounters⟩
  · intro hrun
    have hcounters : counters.Pairwise (· < ·) := by
      have hahead := hrun.invariant Ahead ⟨fun _ ↦ rfl, by simp, List.Pairwise.nil⟩
        fun _ _ _ _ _ h hkeeps hstep ↦ ahead_step h hkeeps hstep
      exact hahead.increasing
    exact ⟨hcounters, counters_positive hrun, neverReplayed_of_increasing hcorrect hcounters⟩

/-- The file is lost between two calls. -/
theorem counters_survive_state_loss_sample :
    ([100, 200] : List UInt64).Pairwise (· < ·) ∧ NeverReplayed Crypto.transparent Toml.plain
      Sample.alice Sample.serverPrivate [100, 200] := by
  have hfirst : step "id.counter" none (.call 100 false none) =
      some (some (counterText 100), some 100) := by decide +kernel
  have hdelete : step "id.counter" (some (counterText 100)) .delete = some (none, none) := rfl
  have hsecond : step "id.counter" none (.call 200 false none) =
      some (some (counterText 200), some 200) := by decide +kernel
  have hnil : Run (step "id.counter") unrestricted none [] [] none := .nil
  have hrun := ((hnil.snoc trivial hfirst).snoc trivial hdelete).snoc trivial hsecond
  have hfloors : ∀ floor ∈ floors [.call 100 false none, .delete, .call 200 false none],
      0 < floor ∧ floor.toNat < 2 ^ 64 - 1 := by simp [floors, Event.floor?]
  obtain ⟨hpairwise, -, hnever⟩ := (counters_survive_state_loss Crypto.transparent
    Crypto.transparent_correct Toml.plain Sample.alice Sample.serverPrivate "id.counter" none _ _
    _).1 hrun hfloors (by decide) (.inl rfl)
  exact ⟨hpairwise, hnever⟩

end Ghostbro.Client
