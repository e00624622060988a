import Ghostbro.Foundation.Machine
import Ghostbro.Server.SpaVerifier

/-!
# Replay safety across reloads, failed saves and restarts

A node is the file system together with the running verifier, if the process is up.  Its events
are verify calls whose save may stop at any file operation, roster reloads, crashes between or
inside calls, and restarts that load the counter file without the first-run opt-in.

The invariant has two halves: every accepted counter is covered by the table in memory, and it is
covered by the table that a restart would load.  Accepting writes both, in the order that a crash
cannot undo.  The second half needs the temporary file to be another file than the live one.
-/

namespace Ghostbro.Replay

open Machine Sample

/-- The file system and the running process. -/
structure Node where
  files : FileSystem
  process : Option SpaVerifier
  deriving DecidableEq

inductive Event
  | verify (payload : Bytes) (source : Ipv4Addr) (nowMs : UInt64) (fault : Option SaveFault)
  /-- The process dies inside `verify`, after the file operations before `point`. -/
  | crashInVerify (payload : Bytes) (source : Ipv4Addr) (nowMs : UInt64)
      (point : Option SaveFault)
  | reloadClients (clients : List AuthorizedClient)
  | crash
  | restart (clients : List AuthorizedClient) (timeWindowSeconds : UInt64)

/-- A payload that `verify` accepted. -/
structure Accepted where
  payload : Bytes
  accept : SpaAccept
  deriving DecidableEq

variable (crypto : Crypto) (toml : Toml) (path : Path) (serverStaticPrivate : Octets 32)

/-- One event of the node; `verify` outputs what it accepts. -/
def step : Step Node Event Accepted
  | node, .verify payload source nowMs fault =>
    node.process.map fun verifier ↦
      let outcome := verifier.verify crypto toml node.files payload source nowMs fault
      (⟨outcome.files, some outcome.verifier⟩,
        outcome.result.toOption.map fun accept ↦ ⟨payload, accept⟩)
  | node, .crashInVerify payload source nowMs point =>
    node.process.map fun verifier ↦
      let outcome := verifier.verify crypto toml node.files payload source nowMs point
      (⟨outcome.files, none⟩, none)
  | node, .reloadClients clients =>
    node.process.map fun verifier ↦
      (⟨node.files, some (verifier.reloadClients clients).1⟩, none)
  | node, .crash => some (⟨node.files, none⟩, none)
  | node, .restart clients timeWindowSeconds =>
    match node.process with
    | some _ => none
    | none =>
      match SpaVerifier.load crypto toml node.files clients timeWindowSeconds path
        serverStaticPrivate false with
      | .error _ => some (node, none)
      | .ok verifier => some (⟨node.files, some verifier⟩, none)

/-! ### The invariant -/

/-- A restart would load a table that covers this accept. -/
def CoveredOnDisk (files : FileSystem) (accepted : Accepted) : Prop :=
  ∃ loaded, loadCounterState toml files path false = .ok loaded ∧
    accepted.accept.counter ≤ (loaded.lookup accepted.accept.keyId).getD 0

/-- The payload opens to the key and counter it was accepted with. -/
def OpensTo (accepted : Accepted) : Prop :=
  ∃ packet, SpaPacket.openWire crypto accepted.payload serverStaticPrivate = .ok packet ∧
    packet.keyId = accepted.accept.keyId ∧ packet.counter = accepted.accept.counter

/-- The running verifier serves this server and covers every accept so far. -/
structure Covers (accepted : List Accepted) (verifier : SpaVerifier) : Prop where
  counterStatePath : verifier.counterStatePath = some path
  serverStaticPrivate : verifier.serverStaticPrivate = serverStaticPrivate
  counters : ∀ earlier ∈ accepted,
    earlier.accept.counter ≤ verifier.highestCounter earlier.accept.keyId

structure Invariant (accepted : List Accepted) (node : Node) : Prop where
  memory : ∀ verifier, node.process = some verifier →
    Covers path serverStaticPrivate accepted verifier
  disk : ∀ earlier ∈ accepted, CoveredOnDisk toml path node.files earlier
  opens : ∀ earlier ∈ accepted, OpensTo crypto serverStaticPrivate earlier

/-- What an accept adds to the history: it is above every earlier accept of its key, and memory
and disk cover it. -/
structure Extends (accepted : List Accepted) (outcome : SpaVerifier.Outcome) (new : Accepted) :
    Prop where
  above : ∀ earlier ∈ accepted, earlier.accept.keyId = new.accept.keyId →
    earlier.accept.counter < new.accept.counter
  memory : new.accept.counter ≤ outcome.verifier.highestCounter new.accept.keyId
  disk : CoveredOnDisk toml path outcome.files new
  opens : OpensTo crypto serverStaticPrivate new

variable {crypto toml path serverStaticPrivate}

theorem invariant_start {files : FileSystem} {clients : List AuthorizedClient}
    {timeWindowSeconds : UInt64} {allowMissingState : Bool} {verifier : SpaVerifier}
    (hload : SpaVerifier.load crypto toml files clients timeWindowSeconds path
      serverStaticPrivate allowMissingState = .ok verifier) :
    Invariant crypto toml path serverStaticPrivate [] ⟨files, some verifier⟩ where
  memory := by
    rintro _ ⟨⟩
    unfold SpaVerifier.load at hload
    split at hload
    · cases hload
    · obtain rfl := Except.ok.inj hload
      exact ⟨rfl, rfl, by simp⟩
  disk := by simp
  opens := by simp

/-- A verifier loaded from disk covers what is covered on disk. -/
theorem covers_of_load {accepted : List Accepted} {files : FileSystem}
    {clients : List AuthorizedClient} {timeWindowSeconds : UInt64} {verifier : SpaVerifier}
    (hdisk : ∀ earlier ∈ accepted, CoveredOnDisk toml path files earlier)
    (hload : SpaVerifier.load crypto toml files clients timeWindowSeconds path
      serverStaticPrivate false = .ok verifier) :
    Covers path serverStaticPrivate accepted verifier := by
  unfold SpaVerifier.load at hload
  split at hload
  · cases hload
  rename_i counters hcounters
  obtain rfl := Except.ok.inj hload
  refine ⟨rfl, rfl, fun earlier hearlier ↦ ?_⟩
  obtain ⟨loaded, hloaded, hle⟩ := hdisk earlier hearlier
  obtain rfl : counters = loaded := Except.ok.inj (hcounters.symm.trans hloaded)
  exact hle

/-! ### One persist attempt -/

/-- A failed persist attempt leaves the live file alone; a successful one leaves the table it was
handed. -/
theorem persistCounters_disk (hpath : path.extension ≠ some "tmp") (htoml : toml.RoundTrips)
    {verifier : SpaVerifier} (hverifier : verifier.counterStatePath = some path)
    (files : FileSystem) (fault : Option SaveFault) :
    let persisted := verifier.persistCounters toml files fault
    (persisted.2 ≠ .ok () ∧ persisted.1.lookup path = files.lookup path) ∨
      ∃ loaded, loadCounterState toml persisted.1 path false = .ok loaded ∧
        ∀ keyId, (loaded.lookup keyId).getD 0 = verifier.highestCounter keyId := by
  simp only [SpaVerifier.persistCounters, hverifier, saveCounterState]
  cases htext : toml.toStringPretty (counterStateFile verifier.highestCounters) with
  | none => exact .inl ⟨by rintro ⟨⟩, rfl⟩
  | some contents =>
    cases fault with
    | some fault =>
      have hlive := lookup_writeThenRename_some (Path.withExtension_tmp_ne hpath) files contents
        fault
      exact .inl ⟨by rintro ⟨⟩, hlive⟩
    | none =>
      obtain ⟨loaded, hload, hlookup⟩ := loadCounterState_of_text htoml htext
        (lookup_writeThenRename_none files path contents) false
      exact .inr ⟨loaded, hload, fun keyId ↦ by rw [hlookup, SpaVerifier.highestCounter]⟩

theorem loadCounterState_congr {files files' : FileSystem}
    (h : files'.lookup path = files.lookup path) (allowMissingState : Bool) :
    loadCounterState toml files' path allowMissingState =
      loadCounterState toml files path allowMissingState := by
  unfold loadCounterState
  rw [h]

/-- What was covered on disk stays covered by a persist attempt on a table that covers it. -/
theorem coveredOnDisk_persistCounters (hpath : path.extension ≠ some "tmp")
    (htoml : toml.RoundTrips) {accepted : List Accepted} {files : FileSystem}
    {verifier : SpaVerifier} (hcovers : Covers path serverStaticPrivate accepted verifier)
    (hdisk : ∀ earlier ∈ accepted, CoveredOnDisk toml path files earlier)
    (fault : Option SaveFault) :
    ∀ earlier ∈ accepted,
      CoveredOnDisk toml path (verifier.persistCounters toml files fault).1 earlier := by
  intro earlier hearlier
  rcases persistCounters_disk hpath htoml hcovers.counterStatePath files fault with
    ⟨_, hlive⟩ | ⟨loaded, hload, hlookup⟩
  · obtain ⟨loaded, hload, hle⟩ := hdisk earlier hearlier
    exact ⟨loaded, (loadCounterState_congr hlive false).trans hload, hle⟩
  · exact ⟨loaded, hload, by rw [hlookup]; exact hcovers.counters earlier hearlier⟩

/-- Recording a counter above the high-water mark only raises the marks. -/
theorem Covers.recordCounter {accepted : List Accepted} {verifier : SpaVerifier}
    (hcovers : Covers path serverStaticPrivate accepted verifier) {packet : SpaPacket}
    (hcounter : verifier.highestCounter packet.keyId < packet.counter) :
    Covers path serverStaticPrivate accepted (verifier.recordCounter packet) where
  counterStatePath := hcovers.counterStatePath
  serverStaticPrivate := hcovers.serverStaticPrivate
  counters := by
    intro earlier hearlier
    have hle := hcovers.counters earlier hearlier
    rw [SpaVerifier.highestCounter_recordCounter]
    split_ifs with hkey
    · rw [hkey] at hle
      exact UInt64.le_of_lt (UInt64.lt_of_le_of_lt hle hcounter)
    · exact hle

/-- A verify call keeps memory and disk above the history, and what it accepts extends it. -/
theorem verify_covers (crypto : Crypto) (hpath : path.extension ≠ some "tmp")
    (htoml : toml.RoundTrips) {accepted : List Accepted} {files : FileSystem}
    {verifier : SpaVerifier} (hcovers : Covers path serverStaticPrivate accepted verifier)
    (hdisk : ∀ earlier ∈ accepted, CoveredOnDisk toml path files earlier)
    (payload : Bytes) (source : Ipv4Addr) (nowMs : UInt64) (fault : Option SaveFault) :
    let outcome := verifier.verify crypto toml files payload source nowMs fault
    Covers path serverStaticPrivate accepted outcome.verifier ∧
      (∀ earlier ∈ accepted, CoveredOnDisk toml path outcome.files earlier) ∧
      ∀ accept, outcome.result = .ok accept →
        Extends crypto toml path serverStaticPrivate accepted outcome ⟨payload, accept⟩ := by
  rcases SpaVerifier.verify_cases crypto toml verifier files payload source nowMs fault with
    ⟨error, heq⟩ | ⟨packet, client, hauth, hcounter, hpersisted⟩
  · rw [heq]
    exact ⟨hcovers, hdisk, by rintro accept ⟨⟩⟩
  have hcovers' := hcovers.recordCounter hcounter
  have hdisk' := coveredOnDisk_persistCounters hpath htoml hcovers' hdisk fault
  rcases hpersisted with ⟨error, _, heq⟩ | ⟨hok, heq⟩
  · rw [heq]
    exact ⟨hcovers', hdisk', by rintro accept ⟨⟩⟩
  rw [heq]
  refine ⟨hcovers', hdisk', ?_⟩
  rintro accept ⟨⟩
  have hself : (verifier.recordCounter packet).highestCounter packet.keyId = packet.counter := by
    rw [SpaVerifier.highestCounter_recordCounter, if_pos rfl]
  rcases persistCounters_disk hpath htoml hcovers'.counterStatePath files fault with
    ⟨hfailed, _⟩ | ⟨loaded, hload, hlookup⟩
  · exact absurd hok hfailed
  have hopen := (SpaVerifier.authenticate_ok hauth).1
  rw [hcovers.serverStaticPrivate] at hopen
  refine ⟨fun earlier hearlier hkey ↦ ?_, UInt64.le_of_eq hself.symm, ⟨loaded, hload, ?_⟩,
    ⟨packet, hopen, rfl, rfl⟩⟩
  · have hle := hcovers.counters earlier hearlier
    rw [hkey] at hle
    exact UInt64.lt_of_le_of_lt hle hcounter
  · rw [hlookup]
    exact UInt64.le_of_eq hself.symm

/-! ### Whole runs -/

theorem invariant_step (hpath : path.extension ≠ some "tmp") (htoml : toml.RoundTrips)
    {accepted : List Accepted} {node next : Node} {event : Event} {emitted : Option Accepted}
    (hinv : Invariant crypto toml path serverStaticPrivate accepted node)
    (hstep : step crypto toml path serverStaticPrivate node event = some (next, emitted)) :
    Invariant crypto toml path serverStaticPrivate (accepted ++ emitted.toList) next := by
  cases event with
  | verify payload source nowMs fault =>
    obtain ⟨verifier, hprocess, heq⟩ := Option.map_eq_some_iff.mp hstep
    obtain ⟨rfl, rfl⟩ := Prod.mk.inj heq
    obtain ⟨hcovers, hdisk, hextends⟩ := verify_covers crypto hpath htoml
      (hinv.memory verifier hprocess) hinv.disk payload source nowMs fault
    cases hresult : (verifier.verify crypto toml node.files payload source nowMs fault).result with
    | error error =>
      refine ⟨?_, by simpa [Except.toOption] using hdisk,
        by simpa [Except.toOption] using hinv.opens⟩
      rintro _ ⟨⟩
      simpa [Except.toOption] using hcovers
    | ok accept =>
      have hnew := hextends accept hresult
      have hmem : ∀ earlier ∈ accepted ++ [(⟨payload, accept⟩ : Accepted)],
          earlier ∈ accepted ∨ earlier = ⟨payload, accept⟩ := by simp
      refine ⟨?_, fun earlier hearlier ↦ ?_, fun earlier hearlier ↦ ?_⟩
      · rintro _ ⟨⟩
        refine ⟨hcovers.counterStatePath, hcovers.serverStaticPrivate, fun earlier hearlier ↦ ?_⟩
        rcases hmem earlier hearlier with hold | rfl
        · exact hcovers.counters earlier hold
        · exact hnew.memory
      · rcases hmem earlier hearlier with hold | rfl
        · exact hdisk earlier hold
        · exact hnew.disk
      · rcases hmem earlier hearlier with hold | rfl
        · exact hinv.opens earlier hold
        · exact hnew.opens
  | crashInVerify payload source nowMs point =>
    obtain ⟨verifier, hprocess, heq⟩ := Option.map_eq_some_iff.mp hstep
    obtain ⟨rfl, rfl⟩ := Prod.mk.inj heq
    obtain ⟨_, hdisk, _⟩ := verify_covers crypto hpath htoml
      (hinv.memory verifier hprocess) hinv.disk payload source nowMs point
    exact ⟨by rintro _ ⟨⟩, by simpa using hdisk, by simpa using hinv.opens⟩
  | reloadClients clients =>
    obtain ⟨verifier, hprocess, heq⟩ := Option.map_eq_some_iff.mp hstep
    obtain ⟨rfl, rfl⟩ := Prod.mk.inj heq
    have hcovers := hinv.memory verifier hprocess
    refine ⟨?_, by simpa using hinv.disk, by simpa using hinv.opens⟩
    rintro _ ⟨⟩
    rw [Option.toList_none, List.append_nil]
    exact ⟨hcovers.counterStatePath, hcovers.serverStaticPrivate, hcovers.counters⟩
  | crash =>
    obtain ⟨rfl, rfl⟩ := Prod.mk.inj (Option.some.inj hstep)
    exact ⟨by rintro _ ⟨⟩, by simpa using hinv.disk, by simpa using hinv.opens⟩
  | restart clients timeWindowSeconds =>
    simp only [step] at hstep
    split at hstep
    · cases hstep
    split at hstep
    · obtain ⟨rfl, rfl⟩ := Prod.mk.inj (Option.some.inj hstep)
      simpa using hinv
    · rename_i verifier hload
      obtain ⟨rfl, rfl⟩ := Prod.mk.inj (Option.some.inj hstep)
      refine ⟨?_, by simpa using hinv.disk, by simpa using hinv.opens⟩
      rintro _ ⟨⟩
      simpa using covers_of_load hinv.disk hload

/-- An accepted payload extends the history of the run before it. -/
theorem extends_of_emitted (hpath : path.extension ≠ some "tmp") (htoml : toml.RoundTrips)
    {accepted : List Accepted} {node next : Node} {event : Event} {new : Accepted}
    (hinv : Invariant crypto toml path serverStaticPrivate accepted node)
    (hstep : step crypto toml path serverStaticPrivate node event = some (next, some new)) :
    ∃ outcome, Extends crypto toml path serverStaticPrivate accepted outcome new := by
  cases event with
  | verify payload source nowMs fault =>
    obtain ⟨verifier, hprocess, heq⟩ := Option.map_eq_some_iff.mp hstep
    obtain ⟨_, _, hextends⟩ := verify_covers crypto hpath htoml
      (hinv.memory verifier hprocess) hinv.disk payload source nowMs fault
    cases hresult : (verifier.verify crypto toml node.files payload source nowMs fault).result with
    | error error => simp [hresult, Except.toOption] at heq
    | ok accept =>
      have hnew : (⟨payload, accept⟩ : Accepted) = new := by
        simpa [hresult, Except.toOption] using (Prod.mk.inj heq).2
      exact ⟨_, hnew ▸ hextends accept hresult⟩
  | crashInVerify payload source nowMs point => simp [step] at hstep
  | reloadClients clients => simp [step] at hstep
  | crash => simp [step] at hstep
  | restart clients timeWindowSeconds =>
    simp only [step] at hstep
    repeat' split at hstep
    all_goals simp at hstep

/-- Two accepts of one run: the later counter of a key is larger, and no payload comes twice. -/
def Fresh (earlier later : Accepted) : Prop :=
  (earlier.accept.keyId = later.accept.keyId → earlier.accept.counter < later.accept.counter) ∧
    earlier.payload ≠ later.payload

instance (earlier later : Accepted) : Decidable (Fresh earlier later) :=
  inferInstanceAs (Decidable (_ ∧ _))

/-- No run that starts from a loaded verifier accepts a counter of a key twice or out of order. -/
def ReplaySafe (crypto : Crypto) (toml : Toml) (path : Path) (serverStaticPrivate : Octets 32) :
    Prop :=
  ∀ files clients timeWindowSeconds allowMissingState verifier events accepted node,
    SpaVerifier.load crypto toml files clients timeWindowSeconds path serverStaticPrivate
      allowMissingState = .ok verifier →
    Run (step crypto toml path serverStaticPrivate) unrestricted ⟨files, some verifier⟩ events
      accepted node →
    accepted.Pairwise Fresh

theorem fresh_of_extends {accepted : List Accepted} {outcome : SpaVerifier.Outcome}
    {new earlier : Accepted}
    (hnew : Extends crypto toml path serverStaticPrivate accepted outcome new)
    (hopens : ∀ earlier ∈ accepted, OpensTo crypto serverStaticPrivate earlier)
    (hearlier : earlier ∈ accepted) : Fresh earlier new := by
  refine ⟨hnew.above earlier hearlier, fun hpayload ↦ ?_⟩
  -- equal payloads open to the same key and counter, which would have to increase
  obtain ⟨packet, hopen, hkey, hcounter⟩ := hopens earlier hearlier
  obtain ⟨packet', hopen', hkey', hcounter'⟩ := hnew.opens
  rw [hpayload, hopen'] at hopen
  obtain rfl := Except.ok.inj hopen
  have hlt := hnew.above earlier hearlier (hkey.symm.trans hkey')
  rw [← hcounter, ← hcounter'] at hlt
  exact UInt64.lt_irrefl _ hlt

/-- Replay safety of every run whose counter file does not itself have the extension `tmp`. -/
theorem replaySafe_of_extension_ne_tmp (crypto : Crypto) (toml : Toml) (htoml : toml.RoundTrips)
    (path : Path) (hpath : path.extension ≠ some "tmp") (serverStaticPrivate : Octets 32) :
    ReplaySafe crypto toml path serverStaticPrivate := by
  intro files clients timeWindowSeconds allowMissingState verifier events accepted node hload hrun
  refine EachAfter.pairwise ?_
  refine Run.history (Invariant crypto toml path serverStaticPrivate)
    (invariant_start hload) ?_ ?_ hrun
  · intro accepted node event next emitted hinv _ hstep
    exact invariant_step hpath htoml hinv hstep
  · intro accepted node event next new hinv _ hstep earlier hearlier
    obtain ⟨outcome, hnew⟩ := extends_of_emitted hpath htoml hinv hstep
    exact fresh_of_extends hnew hinv.opens hearlier

/-! ### Two places for the counter file -/

/-- The counter file under a name with the extension `tmp`. -/
def aliasedPath : Path := ⟨["", "var", "lib", "ghostbro"], "spa-counters.tmp"⟩

theorem replaySafe_defaultPath :
    ReplaySafe Crypto.transparent Toml.checked defaultPath serverPrivate :=
  replaySafe_of_extension_ne_tmp Crypto.transparent Toml.checked Toml.checked_roundTrips
    defaultPath (by decide +kernel) serverPrivate

/-- A running server with one client and the given counters. -/
def sampleVerifier (path : Path) (counters : HashMap KeyId UInt64) : SpaVerifier :=
  SpaVerifier.fromCounters Crypto.transparent [client "alice" 1 alice] 30 counters
    (some path) serverPrivate

/-- The accept of the first packet. -/
def acceptedFive : Accepted where
  payload := payload alice 5
  accept :=
    { keyId := Vector.replicate 8 5, clientId := 1, clientName := "alice",
      noisePublicKey := Vector.replicate 32 1, mode := .udp, counter := 5,
      maxConcurrentSessions := none }

/-- With the live file as its own temporary file, a crash after the header line of the next save
forgets counter five, and the restarted server accepts the first packet again. -/
theorem not_replaySafe_aliasedPath :
    Toml.checked.RoundTrips ∧
      ¬ReplaySafe Crypto.transparent Toml.checked aliasedPath serverPrivate := by
  refine ⟨Toml.checked_roundTrips, fun hsafe ↦ ?_⟩
  let step := step Crypto.transparent Toml.checked aliasedPath serverPrivate
  let started (files : FileSystem) : Node := ⟨files, some (sampleVerifier aliasedPath ∅)⟩
  let truncated : FileSystem := AList.insert aliasedPath "[counters]\n" ∅
  let saved : Node :=
    ⟨AList.insert aliasedPath "[counters]\n0505050505050505 = 5\n" ∅,
      some (sampleVerifier aliasedPath (AList.insert (Vector.replicate 8 5) 5 ∅))⟩
  have haccept : step (started ∅) (.verify (payload alice 5) source 0 none) =
      some (saved, some acceptedFive) := by decide +kernel
  have hcrash : step saved (.crashInVerify (payload alice 6) source 0
      (some (.writeTemp 11))) = some (⟨truncated, none⟩, none) := by decide +kernel
  have hrestart : step ⟨truncated, none⟩ (.restart [client "alice" 1 alice] 30) =
      some (started truncated, none) := by decide +kernel
  have hagain : step (started truncated)
      (.verify (payload alice 5) source 0 none) =
        some (saved, some acceptedFive) := by decide +kernel
  have hnil : Run step unrestricted (started ∅) [] [] (started ∅) := .nil
  have hrun := (((hnil.snoc trivial haccept).snoc trivial hcrash).snoc trivial
    hrestart).snoc trivial hagain
  have hpairwise := hsafe ∅ [client "alice" 1 alice] 30 true (sampleVerifier aliasedPath ∅)
    _ _ saved rfl hrun
  have hfresh : Fresh acceptedFive acceptedFive := by simpa using hpairwise
  exact hfresh.2 rfl

end Ghostbro.Replay
