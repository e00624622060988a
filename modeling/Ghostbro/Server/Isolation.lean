import Ghostbro.Server.Acceptance

/-!
# Interference between clients

All clients share one counter table, and every accept serializes the whole table.  A client can
change the outcome of another client's packet in one way only: by leaving a counter in the table
that the file format cannot hold.  This file computes the state that the packets of one client
leave behind and the result of the next packet on it, and compares the two runs.
-/

namespace Ghostbro.Isolation

open SpaVerifier

/-- A payload with the source and the clock value of its `verify` call. -/
structure Delivery where
  payload : Bytes
  source : Ipv4Addr
  nowMs : UInt64

variable (crypto : Crypto) (toml : Toml)

/-- The verifier and the files after a sequence of `verify` calls whose file operations succeed. -/
def deliver (verifier : SpaVerifier) (files : FileSystem) (deliveries : List Delivery) :
    SpaVerifier × FileSystem :=
  deliveries.foldl (fun state delivery ↦
    let outcome := state.1.verify crypto toml state.2 delivery.payload delivery.source
      delivery.nowMs none
    (outcome.verifier, outcome.files)) (verifier, files)

/-- The payload opens to a record that names the key. -/
def Names (verifier : SpaVerifier) (keyId : KeyId) (payload : Bytes) : Prop :=
  ∃ packet, SpaPacket.openWire crypto payload verifier.serverStaticPrivate = .ok packet ∧
    packet.keyId = keyId

/-- The payload names an enrolled key and carries a valid signature of it. -/
def SignedBy (verifier : SpaVerifier) (keyId : KeyId) (payload : Bytes) : Prop :=
  ∃ packet client, SpaPacket.openWire crypto payload verifier.serverStaticPrivate = .ok packet ∧
    packet.keyId = keyId ∧ verifier.clients.lookup keyId = some client ∧
    packet.verify crypto client.publicKey verifier.serverStaticPubkey = .ok ()

/-- The result of a packet is the same with and without the deliveries before it. -/
def Undisturbed (verifier : SpaVerifier) (files : FileSystem) (deliveries : List Delivery)
    (next : Delivery) : Prop :=
  let after := deliver crypto toml verifier files deliveries
  (after.1.verify crypto toml after.2 next.payload next.source next.nowMs none).result =
    (verifier.verify crypto toml files next.payload next.source next.nowMs none).result

/-- Some delivery passes every check before the counter comparison and carries a counter that
does not fit the file format. -/
def CarriesOversized (verifier : SpaVerifier) (deliveries : List Delivery) : Prop :=
  ∃ delivery ∈ deliveries, ∃ packet client,
    verifier.authenticate crypto delivery.payload delivery.source delivery.nowMs =
      .ok (packet, client) ∧ i64Max < packet.counter

/-- The packet passes every check, its counter is fresh and fits the file format, and so do the
stored counters of all other keys. -/
def Acceptable (verifier : SpaVerifier) (next : Delivery) : Prop :=
  ∃ packet client,
    verifier.authenticate crypto next.payload next.source next.nowMs = .ok (packet, client) ∧
    verifier.highestCounter packet.keyId < packet.counter ∧ packet.counter ≤ i64Max ∧
    ∀ keyId ≠ packet.keyId, verifier.highestCounter keyId ≤ i64Max

/-! ### One call on a working disk -/

variable {crypto toml}

/-- Every counter of the table fits the file format. -/
def Fits (verifier : SpaVerifier) : Prop := ∀ keyId, verifier.highestCounter keyId ≤ i64Max

/-- The table of a verifier serializes exactly when it fits. -/
theorem serializes_iff_fits (htoml : toml.SerializesUpToI64Max) (verifier : SpaVerifier) :
    (toml.toStringPretty (counterStateFile verifier.highestCounters)).isSome ↔ Fits verifier := by
  rw [htoml]
  constructor
  · intro h keyId
    unfold highestCounter
    cases hlookup : verifier.highestCounters.lookup keyId with
    | none => decide
    | some counter =>
      exact h _ counter ((lookup_counterStateFile _ _ _).mpr ⟨keyId, rfl, hlookup⟩)
  · intro h name counter hlookup
    obtain ⟨keyId, _, hkey⟩ := (lookup_counterStateFile _ _ _).mp hlookup
    have hle := h keyId
    rwa [highestCounter, hkey] at hle

theorem fits_recordCounter (verifier : SpaVerifier) (packet : SpaPacket) :
    Fits (verifier.recordCounter packet) ↔ packet.counter ≤ i64Max ∧
      ∀ keyId ≠ packet.keyId, verifier.highestCounter keyId ≤ i64Max := by
  constructor
  · intro h
    refine ⟨?_, fun keyId hkey ↦ ?_⟩
    · have hself := h packet.keyId
      rwa [highestCounter_recordCounter, if_pos rfl] at hself
    · have hother := h keyId
      rwa [highestCounter_recordCounter, if_neg hkey] at hother
  · intro h keyId
    rw [highestCounter_recordCounter]
    split_ifs with hkey
    · exact h.1
    · exact h.2 keyId hkey

/-- The persist attempt of a table that does not fit fails, any other succeeds. -/
theorem persistCounters_none (htoml : toml.SerializesUpToI64Max) (verifier : SpaVerifier)
    {path : Path} (hpath : verifier.counterStatePath = some path) (files : FileSystem) :
    (Fits verifier → (verifier.persistCounters toml files none).2 = .ok ()) ∧
      (¬Fits verifier → (verifier.persistCounters toml files none).2 =
        .error (.persist "failed to serialize SPA counter state")) := by
  rw [← serializes_iff_fits htoml]
  unfold persistCounters saveCounterState
  rw [hpath]
  cases htext : toml.toStringPretty (counterStateFile verifier.highestCounters) with
  | none => exact ⟨fun h ↦ by simp at h, fun _ ↦ rfl⟩
  | some contents => exact ⟨fun _ ↦ rfl, fun h ↦ by simp at h⟩

/-- A packet that reaches the counter comparison with a fresh counter is accepted if and only if
the table with its counter fits. -/
theorem result_of_fresh (htoml : toml.SerializesUpToI64Max) {verifier : SpaVerifier} {path : Path}
    (hpath : verifier.counterStatePath = some path) (files : FileSystem) {next : Delivery}
    {packet : SpaPacket} {client : AuthorizedClient}
    (hauth : verifier.authenticate crypto next.payload next.source next.nowMs =
      .ok (packet, client))
    (hfresh : verifier.highestCounter packet.keyId < packet.counter) :
    let result :=
      (verifier.verify crypto toml files next.payload next.source next.nowMs none).result
    (Fits (verifier.recordCounter packet) → result = .ok (acceptOf packet client)) ∧
      (¬Fits (verifier.recordCounter packet) →
        result = .error (.persist "failed to serialize SPA counter state")) := by
  have hcounter : ¬packet.counter ≤ verifier.highestCounter packet.keyId := by grind
  have hpersist := persistCounters_none htoml (verifier.recordCounter packet) hpath files
  unfold verify
  rw [hauth]
  simp only [if_neg hcounter]
  exact ⟨fun h ↦ by rw [hpersist.1 h], fun h ↦ by rw [hpersist.2 h]⟩

/-! ### The state that the packets of one client leave -/

/-- Two verifiers that differ in nothing but their counter tables. -/
structure SameServer (verifier verifier' : SpaVerifier) : Prop where
  clients : verifier'.clients = verifier.clients
  timeWindowMs : verifier'.timeWindowMs = verifier.timeWindowMs
  counterStatePath : verifier'.counterStatePath = verifier.counterStatePath
  serverStaticPrivate : verifier'.serverStaticPrivate = verifier.serverStaticPrivate
  serverStaticPubkey : verifier'.serverStaticPubkey = verifier.serverStaticPubkey

theorem SameServer.refl (verifier : SpaVerifier) : SameServer verifier verifier :=
  ⟨rfl, rfl, rfl, rfl, rfl⟩

theorem SameServer.trans {verifier middle last : SpaVerifier}
    (hfirst : SameServer verifier middle) (hsecond : SameServer middle last) :
    SameServer verifier last where
  clients := hsecond.clients.trans hfirst.clients
  timeWindowMs := hsecond.timeWindowMs.trans hfirst.timeWindowMs
  counterStatePath := hsecond.counterStatePath.trans hfirst.counterStatePath
  serverStaticPrivate := hsecond.serverStaticPrivate.trans hfirst.serverStaticPrivate
  serverStaticPubkey := hsecond.serverStaticPubkey.trans hfirst.serverStaticPubkey

theorem SameServer.authenticate (crypto : Crypto) {verifier verifier' : SpaVerifier}
    (hsame : SameServer verifier verifier') (payload : Bytes) (source : Ipv4Addr)
    (nowMs : UInt64) :
    verifier'.authenticate crypto payload source nowMs =
      verifier.authenticate crypto payload source nowMs :=
  authenticate_congr hsame.clients hsame.serverStaticPrivate hsame.serverStaticPubkey
    hsame.timeWindowMs payload source nowMs

/-- What the deliveries of one client may have changed: its own counter, which only grew, and
which is oversized exactly if it was before or an oversized counter came in. -/
structure After (crypto : Crypto) (keyId : KeyId) (deliveries : List Delivery)
    (verifier verifier' : SpaVerifier) : Prop where
  sameServer : SameServer verifier verifier'
  others : ∀ other ≠ keyId, verifier'.highestCounter other = verifier.highestCounter other
  oversized : i64Max < verifier'.highestCounter keyId ↔
    i64Max < verifier.highestCounter keyId ∨ CarriesOversized crypto verifier deliveries

/-- A call changes the verifier only by recording an authenticated fresh counter. -/
theorem verifier_verify (toml : Toml) (verifier : SpaVerifier) (files : FileSystem)
    (payload : Bytes) (source : Ipv4Addr) (nowMs : UInt64) (fault : Option SaveFault) :
    (verifier.verify crypto toml files payload source nowMs fault).verifier =
      match verifier.authenticate crypto payload source nowMs with
      | .error _ => verifier
      | .ok (packet, _) =>
        if packet.counter ≤ verifier.highestCounter packet.keyId then verifier
        else verifier.recordCounter packet := by
  unfold verify
  cases verifier.authenticate crypto payload source nowMs with
  | error error => rfl
  | ok authenticated =>
    dsimp only
    split_ifs <;> rfl

theorem SignedBy.names {verifier : SpaVerifier} {keyId : KeyId} {payload : Bytes}
    (hsigned : SignedBy crypto verifier keyId payload) : Names crypto verifier keyId payload := by
  obtain ⟨packet, _, hopen, hkey, _⟩ := hsigned
  exact ⟨packet, hopen, hkey⟩

theorem Names.keyId_eq {verifier : SpaVerifier} {keyId : KeyId} {payload : Bytes}
    (hnames : Names crypto verifier keyId payload) {source : Ipv4Addr} {nowMs : UInt64}
    {packet : SpaPacket} {client : AuthorizedClient}
    (hauth : verifier.authenticate crypto payload source nowMs = .ok (packet, client)) :
    packet.keyId = keyId := by
  obtain ⟨opened, hopen, hkey⟩ := hnames
  have hpacket := hopen.symm.trans (authenticate_ok hauth).1
  rw [← Except.ok.inj hpacket]
  exact hkey

theorem SignedBy.congr {verifier verifier' : SpaVerifier} (hsame : SameServer verifier verifier')
    {keyId : KeyId} {payload : Bytes} (hsigned : SignedBy crypto verifier keyId payload) :
    SignedBy crypto verifier' keyId payload := by
  unfold SignedBy
  rw [hsame.clients, hsame.serverStaticPrivate, hsame.serverStaticPubkey]
  exact hsigned

/-- One delivery of a client. -/
theorem after_verify (toml : Toml) {verifier : SpaVerifier} (files : FileSystem) {keyId : KeyId}
    {delivery : Delivery} (hsigned : SignedBy crypto verifier keyId delivery.payload) :
    After crypto keyId [delivery] verifier
      (verifier.verify crypto toml files delivery.payload delivery.source delivery.nowMs
        none).verifier := by
  rw [verifier_verify]
  cases hauth : verifier.authenticate crypto delivery.payload delivery.source delivery.nowMs with
  | error error =>
    refine ⟨⟨rfl, rfl, rfl, rfl, rfl⟩, fun _ _ ↦ rfl, ?_⟩
    simp [CarriesOversized, hauth]
  | ok authenticated =>
    obtain ⟨packet, client⟩ := authenticated
    have hkey := hsigned.names.keyId_eq hauth
    have hcarries : CarriesOversized crypto verifier [delivery] ↔ i64Max < packet.counter := by
      simp [CarriesOversized, hauth]
    subst hkey
    dsimp only
    split_ifs with hcounter
    · refine ⟨⟨rfl, rfl, rfl, rfl, rfl⟩, fun _ _ ↦ rfl, ?_⟩
      rw [hcarries]
      constructor
      · exact Or.inl
      · rintro (h | h)
        · exact h
        · exact UInt64.lt_of_lt_of_le h hcounter
    · refine ⟨⟨rfl, rfl, rfl, rfl, rfl⟩, fun other hother ↦ ?_, ?_⟩
      · rw [highestCounter_recordCounter, if_neg hother]
      · rw [highestCounter_recordCounter, if_pos rfl, hcarries]
        constructor
        · exact Or.inr
        · grind

theorem After.trans {keyId : KeyId} {first second : List Delivery}
    {verifier middle last : SpaVerifier}
    (hfirst : After crypto keyId first verifier middle)
    (hsecond : After crypto keyId second middle last) :
    After crypto keyId (first ++ second) verifier last where
  sameServer := hfirst.sameServer.trans hsecond.sameServer
  others other hother := (hsecond.others other hother).trans (hfirst.others other hother)
  oversized := by
    have hcarries : CarriesOversized crypto middle second ↔
        CarriesOversized crypto verifier second := by
      simp only [CarriesOversized, hfirst.sameServer.authenticate crypto]
    have happend : CarriesOversized crypto verifier (first ++ second) ↔
        CarriesOversized crypto verifier first ∨ CarriesOversized crypto verifier second := by
      simp only [CarriesOversized, List.mem_append]
      grind
    rw [hsecond.oversized, hfirst.oversized, hcarries, happend, or_assoc]

/-- All deliveries of a client. -/
theorem after_deliver (toml : Toml) {keyId : KeyId} (deliveries : List Delivery)
    (verifier : SpaVerifier) (files : FileSystem)
    (hsigned : ∀ delivery ∈ deliveries, SignedBy crypto verifier keyId delivery.payload) :
    After crypto keyId deliveries verifier
      (deliver crypto toml verifier files deliveries).1 := by
  induction deliveries generalizing verifier files with
  | nil => exact ⟨⟨rfl, rfl, rfl, rfl, rfl⟩, fun _ _ ↦ rfl, by simp [deliver, CarriesOversized]⟩
  | cons delivery rest ih =>
    have hfirst := after_verify toml files (hsigned delivery List.mem_cons_self)
    have hrest := ih _ (verifier.verify crypto toml files delivery.payload delivery.source
      delivery.nowMs none).files fun later hlater ↦
        (hsigned later (List.mem_cons_of_mem _ hlater)).congr hfirst.sameServer
    exact hfirst.trans hrest

/-! ### The two runs -/

/-- With the deliveries of another client the table fits in fewer cases: exactly when it fitted
without them and none of them carried an oversized counter. -/
theorem After.fits_recordCounter {keyId : KeyId} {deliveries : List Delivery}
    {verifier verifier' : SpaVerifier} (hafter : After crypto keyId deliveries verifier verifier')
    {packet : SpaPacket} (hkey : keyId ≠ packet.keyId) :
    Fits (verifier'.recordCounter packet) ↔
      Fits (verifier.recordCounter packet) ∧ ¬CarriesOversized crypto verifier deliveries := by
  have hgrown := hafter.oversized
  simp only [Isolation.fits_recordCounter]
  constructor
  · rintro ⟨hcounter, hothers⟩
    have hsmall : ¬i64Max < verifier'.highestCounter keyId := by
      have hle := hothers keyId hkey
      grind
    rw [hgrown, not_or] at hsmall
    refine ⟨⟨hcounter, fun other hother ↦ ?_⟩, hsmall.2⟩
    by_cases hself : other = keyId
    · rw [hself]
      have hle := hsmall.1
      grind
    · rw [← hafter.others other hself]
      exact hothers other hother
  · rintro ⟨⟨hcounter, hothers⟩, hcarries⟩
    refine ⟨hcounter, fun other hother ↦ ?_⟩
    by_cases hself : other = keyId
    · have hsmall : ¬i64Max < verifier'.highestCounter keyId := by
        rw [hgrown, not_or]
        have hle := hothers keyId hkey
        exact ⟨by grind, hcarries⟩
      rw [hself]
      grind
    · rw [hafter.others other hself]
      exact hothers other hother

/-- The packets of one client leave the result of another client's packet alone exactly if none
of them passes the checks with a counter above `i64::MAX`, or the other packet would not have
been accepted anyway. -/
theorem undisturbed_iff (crypto : Crypto) (toml : Toml) (htoml : toml.SerializesUpToI64Max)
    (verifier : SpaVerifier) (files : FileSystem) (path : Path)
    (hpath : verifier.counterStatePath = some path) (keyA keyB : KeyId) (hne : keyA ≠ keyB)
    (deliveries : List Delivery)
    (hA : ∀ delivery ∈ deliveries, SignedBy crypto verifier keyA delivery.payload)
    (next : Delivery) (hB : Names crypto verifier keyB next.payload) :
    Undisturbed crypto toml verifier files deliveries next ↔
      ¬(CarriesOversized crypto verifier deliveries ∧ Acceptable crypto verifier next) := by
  have hafter := after_deliver toml deliveries verifier files hA
  unfold Undisturbed
  generalize deliver crypto toml verifier files deliveries = after at hafter ⊢
  obtain ⟨verifier', files'⟩ := after
  dsimp only at hafter ⊢
  have hsame := hafter.sameServer.authenticate crypto next.payload next.source next.nowMs
  cases hauth : verifier.authenticate crypto next.payload next.source next.nowMs with
  | error error =>
    rw [hauth] at hsame
    simp [verify, hsame, hauth, Acceptable]
  | ok authenticated =>
    obtain ⟨packet, client⟩ := authenticated
    rw [hauth] at hsame
    obtain rfl := hB.keyId_eq hauth
    have hmark := hafter.others packet.keyId hne.symm
    by_cases hcounter : packet.counter ≤ verifier.highestCounter packet.keyId
    · have hstale : ¬verifier.highestCounter packet.keyId < packet.counter := by grind
      simp [verify, hsame, hauth, Acceptable, hmark, hcounter, hstale]
    · have hfresh : verifier.highestCounter packet.keyId < packet.counter := by grind
      have hacceptable : Acceptable crypto verifier next ↔
          Fits (verifier.recordCounter packet) := by
        simp [Acceptable, hauth, hfresh, Isolation.fits_recordCounter]
      obtain ⟨hok, herror⟩ := result_of_fresh htoml hpath files hauth hfresh
      obtain ⟨hok', herror'⟩ := result_of_fresh htoml
        (hafter.sameServer.counterStatePath.trans hpath) files' hsame (hmark ▸ hfresh)
      rw [hafter.fits_recordCounter hne] at hok' herror'
      rw [hacceptable]
      by_cases hfits : Fits (verifier.recordCounter packet)
      · by_cases hcarries : CarriesOversized crypto verifier deliveries
        · rw [hok hfits, herror' (by simp [hcarries])]
          simp [hcarries, hfits]
        · rw [hok hfits, hok' ⟨hfits, hcarries⟩]
          simp [hcarries]
      · rw [herror hfits, herror' (by simp [hfits])]
        simp [hfits]

/-! ### Two clients -/

open Sample

def twoClients : SpaVerifier :=
  SpaVerifier.fromCounters Crypto.transparent
    [client "alice" 1 alice, client "bob" 2 bob] 30 ∅ (some defaultPath) serverPrivate

def delivery (signingKey : Octets 32) (counter : UInt64) : Delivery :=
  ⟨payload signingKey counter, source, 0⟩

theorem keyId_alice (counter : UInt64) : (packet alice counter).keyId = Vector.replicate 8 5 := by
  change SpaPacket.keyIdForPublicKey Crypto.transparent alice = _
  decide +kernel

theorem keyId_bob (counter : UInt64) : (packet bob counter).keyId = Vector.replicate 8 6 := by
  change SpaPacket.keyIdForPublicKey Crypto.transparent bob = _
  decide +kernel

theorem signedBy_alice (counter : UInt64) :
    SignedBy Crypto.transparent twoClients (Vector.replicate 8 5) (payload alice counter) := by
  have hclient : twoClients.clients.lookup (Vector.replicate 8 5) =
      some (client "alice" 1 alice) := by decide +kernel
  exact ⟨packet alice counter, client "alice" 1 alice, openWire_payload alice counter,
    keyId_alice counter, hclient, verify_packet alice counter⟩

theorem signedBy_bob (counter : UInt64) :
    SignedBy Crypto.transparent twoClients (Vector.replicate 8 6) (payload bob counter) := by
  have hclient : twoClients.clients.lookup (Vector.replicate 8 6) =
      some (client "bob" 2 bob) := by decide +kernel
  exact ⟨packet bob counter, client "bob" 2 bob, openWire_payload bob counter, keyId_bob counter,
    hclient, verify_packet bob counter⟩

theorem authenticate_alice (counter : UInt64) :
    twoClients.authenticate Crypto.transparent (payload alice counter) source 0 =
      .ok (packet alice counter, client "alice" 1 alice) :=
  authenticate_payload alice counter ⟨rfl, rfl⟩ (by decide +kernel) source

theorem undisturbed_small_counter :
    Undisturbed Crypto.transparent Toml.plain twoClients ∅ [delivery alice 5] (delivery bob 7) := by
  refine (undisturbed_iff Crypto.transparent Toml.plain Toml.plain_serializesUpToI64Max twoClients
    ∅ defaultPath rfl (Vector.replicate 8 5) (Vector.replicate 8 6) (by decide +kernel)
    [delivery alice 5] ?_ (delivery bob 7) ?_).mpr ?_
  · intro delivery hdelivery
    obtain rfl := List.mem_singleton.mp hdelivery
    exact signedBy_alice 5
  · exact (signedBy_bob 7).names
  · rintro ⟨⟨delivery, hdelivery, packet, client, hpacket, hlarge⟩, _⟩
    obtain rfl := List.mem_singleton.mp hdelivery
    obtain ⟨rfl, _⟩ := Prod.mk.inj (Except.ok.inj ((authenticate_alice 5).symm.trans hpacket))
    revert hlarge
    decide +kernel

/-- A packet of alice with counter `2 ^ 63` makes the server refuse bob's next packet. -/
theorem disturbed_by_oversized_counter :
    Toml.plain.SerializesUpToI64Max ∧
      SpaVerifier.load Crypto.transparent Toml.plain ∅
        [client "alice" 1 alice, client "bob" 2 bob] 30 defaultPath serverPrivate true =
          .ok twoClients ∧
      SignedBy Crypto.transparent twoClients (Vector.replicate 8 5)
        (payload alice 9223372036854775808) ∧
      SignedBy Crypto.transparent twoClients (Vector.replicate 8 6) (payload bob 7) ∧
      ¬Undisturbed Crypto.transparent Toml.plain twoClients ∅
        [delivery alice 9223372036854775808] (delivery bob 7) := by
  refine ⟨Toml.plain_serializesUpToI64Max, rfl, signedBy_alice _, signedBy_bob 7, fun hsame ↦ ?_⟩
  have hauth : twoClients.authenticate Crypto.transparent (delivery bob 7).payload
      (delivery bob 7).source (delivery bob 7).nowMs = .ok (packet bob 7, client "bob" 2 bob) :=
    authenticate_payload bob 7 ⟨rfl, rfl⟩ (by decide +kernel) source
  have hkeys : Vector.replicate 8 5 ≠ (packet bob 7).keyId := by
    rw [keyId_bob]
    decide
  have hfresh : twoClients.highestCounter (packet bob 7).keyId < (packet bob 7).counter := by
    change (0 : UInt64) < 7
    decide
  have hfits : Fits (twoClients.recordCounter (packet bob 7)) :=
    (fits_recordCounter _ _).mpr ⟨by decide, fun _ _ ↦ UInt64.zero_le⟩
  have hcarries : CarriesOversized Crypto.transparent twoClients
      [delivery alice 9223372036854775808] :=
    ⟨_, List.mem_singleton_self _, _, _, authenticate_alice _, by decide⟩
  have hafter := after_deliver Toml.plain [delivery alice 9223372036854775808] twoClients ∅
    (List.forall_mem_singleton.mpr (signedBy_alice _))
  have hmark := hafter.others _ hkeys.symm
  have haccepted := (result_of_fresh Toml.plain_serializesUpToI64Max rfl ∅ hauth hfresh).1 hfits
  unfold Undisturbed at hsame
  generalize deliver Crypto.transparent Toml.plain twoClients ∅
    [delivery alice 9223372036854775808] = after at hafter hmark hsame
  have hauth' := (hafter.sameServer.authenticate Crypto.transparent _ _ _).trans hauth
  have hrefused := (result_of_fresh Toml.plain_serializesUpToI64Max
    hafter.sameServer.counterStatePath after.2 hauth' (hmark.trans_lt hfresh)).2
      fun hfits' ↦ ((hafter.fits_recordCounter hkeys).mp hfits').2 hcarries
  exact absurd (hrefused.symm.trans (hsame.trans haccepted)) (by simp)

end Ghostbro.Isolation
