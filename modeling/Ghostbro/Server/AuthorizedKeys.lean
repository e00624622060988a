import Ghostbro.Common.KeyText
import Ghostbro.Server.Continuity

/-!
# The file of authorized keys

`AuthorizedKeysFile::into_clients` decodes the entries in the order of the file and numbers the
clients from 1; the first entry that does not decode ends it with an error.  An entry that `keygen`
printed decodes to the keys of the identity, so the packets of the identity are accepted and its
Noise key is the one that the handshake expects.
-/

namespace Ghostbro.AuthorizedKeys

open Keys

structure AuthorizedClientConfig where
  name : String
  publicKey : String
  noisePublicKey : String
  tier : ClientTier
  maxConcurrentSessions : Option UInt16
  deriving DecidableEq

structure AuthorizedKeysFile where
  clients : List AuthorizedClientConfig
  deriving DecidableEq

/-- `index_to_client_id`. -/
def indexToClientId (index : ℕ) : UInt16 :=
  if index + 1 < 2 ^ 16 then UInt16.ofNat (index + 1) else 65535

section

variable (codec : Base64.Codec) (crypto : Crypto) (isPoint : Octets 32 → Bool)

/-- `AuthorizedClient::from_config`. -/
def fromConfig (config : AuthorizedClientConfig) (clientId : UInt16) :
    Except KeyError AuthorizedClient := do
  let publicKey ← decodePublicKey codec isPoint config.publicKey
  let noisePublicKey ← decodeNoisePublicKey codec config.noisePublicKey
  let keyId := SpaPacket.keyIdForPublicKey crypto publicKey
  return {
    name := config.name
    publicKey := publicKey
    noisePublicKey := noisePublicKey
    keyId := keyId
    clientId := clientId
    tier := config.tier
    maxConcurrentSessions := config.maxConcurrentSessions }

/-- `AuthorizedKeysFile::into_clients`. -/
def intoClients (file : AuthorizedKeysFile) : Except KeyError (List AuthorizedClient) :=
  file.clients.zipIdx.mapM fun entry ↦
    fromConfig codec crypto isPoint entry.1 (indexToClientId entry.2)

variable {codec crypto isPoint}

/-! ### Client identifiers -/

theorem toNat_indexToClientId (index : ℕ) :
    (indexToClientId index).toNat = min (index + 1) 65535 := by
  rw [indexToClientId]
  split
  · rw [UInt16.toNat_ofNat', Nat.mod_eq_of_lt (by omega)]
    omega
  · rw [show (65535 : UInt16).toNat = 65535 from rfl]
    omega

/-! ### Entries -/

/-- The entry that is written for a client. -/
def configOf (codec : Base64.Codec) (client : AuthorizedClient) : AuthorizedClientConfig where
  name := client.name
  publicKey := encodePublicKey codec client.publicKey
  noisePublicKey := encodeNoisePublicKey codec client.noisePublicKey
  tier := client.tier
  maxConcurrentSessions := client.maxConcurrentSessions

/-- The keys of a client are valid, and its identifiers are those of its key and its entry. -/
structure Numbered (crypto : Crypto) (isPoint : Octets 32 → Bool) (clientId : UInt16)
    (client : AuthorizedClient) : Prop where
  isPoint : isPoint client.publicKey = true
  clientId : client.clientId = clientId
  keyId : client.keyId = SpaPacket.keyIdForPublicKey crypto client.publicKey

theorem fromConfig_eq_ok_iff {config : AuthorizedClientConfig} {clientId : UInt16}
    {client : AuthorizedClient} :
    fromConfig codec crypto isPoint config clientId = .ok client ↔
      config = configOf codec client ∧ Numbered crypto isPoint clientId client := by
  constructor
  · intro h
    unfold fromConfig at h
    cases hpublic : decodePublicKey codec isPoint config.publicKey with
    | error error =>
      rw [hpublic] at h
      cases h
    | ok publicKey =>
      cases hnoise : decodeNoisePublicKey codec config.noisePublicKey with
      | error error =>
        rw [hpublic, hnoise] at h
        cases h
      | ok noisePublicKey =>
        rw [hpublic, hnoise] at h
        obtain rfl := Except.ok.inj h
        obtain ⟨hencoded, hpoint⟩ := decodePublicKey_eq_ok_iff.mp hpublic
        have hencoded' := decodeNoisePublicKey_eq_ok_iff.mp hnoise
        refine ⟨?_, hpoint, rfl, rfl⟩
        cases config
        rw [configOf, ← hencoded, ← hencoded']
  · rintro ⟨rfl, hpoint, rfl, hkeyId⟩
    have hpublic : decodePublicKey codec isPoint (encodePublicKey codec client.publicKey) =
        .ok client.publicKey := decodePublicKey_eq_ok_iff.mpr ⟨rfl, hpoint⟩
    have hnoise : decodeNoisePublicKey codec (encodeNoisePublicKey codec client.noisePublicKey) =
        .ok client.noisePublicKey := decodeNoisePublicKey_eq_ok_iff.mpr rfl
    rw [fromConfig, configOf, hpublic, hnoise]
    cases client
    simp only at hkeyId
    rw [hkeyId]
    rfl

theorem mapM_eq_ok_iff {α β ε : Type} {f : α → Except ε β} {inputs : List α} {results : List β} :
    inputs.mapM f = .ok results ↔
      List.Forall₂ (fun input result ↦ f input = .ok result) inputs results := by
  induction inputs generalizing results with
  | nil =>
    rw [List.mapM_nil, List.forall₂_nil_left_iff]
    exact ⟨fun h ↦ (Except.ok.inj h).symm, fun h ↦ h ▸ rfl⟩
  | cons first rest ih =>
    rw [List.mapM_cons, List.forall₂_cons_left_iff]
    cases hfirst : f first with
    | error error =>
      constructor
      · intro h
        cases h
      · rintro ⟨_, _, h, -⟩
        cases h
    | ok result =>
      cases hrest : rest.mapM f with
      | error error =>
        constructor
        · intro h
          cases h
        · rintro ⟨_, others, -, hothers, -⟩
          rw [ih.mpr hothers] at hrest
          cases hrest
      | ok others =>
        constructor
        · intro h
          exact ⟨result, others, rfl, ih.mp hrest, (Except.ok.inj h).symm⟩
        · rintro ⟨_, others', h, hothers, rfl⟩
          rw [ih.mpr hothers] at hrest
          rw [← Except.ok.inj h, ← Except.ok.inj hrest]
          rfl

theorem forall₂_zipIdx_iff {configs : List AuthorizedClientConfig}
    {clients : List AuthorizedClient} {start : ℕ} :
    List.Forall₂ (fun entry client ↦
        fromConfig codec crypto isPoint entry.1 (indexToClientId entry.2) = .ok client)
      (configs.zipIdx start) clients ↔
      configs = clients.map (configOf codec) ∧ ∀ index client, clients[index]? = some client →
        Numbered crypto isPoint (indexToClientId (start + index)) client := by
  induction configs generalizing clients start with
  | nil =>
    rw [List.zipIdx_nil, List.forall₂_nil_left_iff]
    constructor
    · rintro rfl
      exact ⟨rfl, by simp⟩
    · rintro ⟨hnil, -⟩
      exact List.map_eq_nil_iff.mp hnil.symm
  | cons config configs ih =>
    rw [List.zipIdx_cons, List.forall₂_cons_left_iff]
    constructor
    · rintro ⟨client, others, hclient, hothers, rfl⟩
      obtain ⟨rfl, hnumbered⟩ := fromConfig_eq_ok_iff.mp hclient
      obtain ⟨rfl, hrest⟩ := ih.mp hothers
      refine ⟨rfl, fun index found hfound ↦ ?_⟩
      cases index with
      | zero =>
        obtain rfl : client = found := by simpa using hfound
        exact hnumbered
      | succ index =>
        rw [show start + (index + 1) = start + 1 + index by omega]
        exact hrest index found (by simpa using hfound)
    · rintro ⟨heq, hall⟩
      cases clients with
      | nil => cases heq
      | cons client others =>
        obtain ⟨rfl, rfl⟩ := List.cons.inj heq
        refine ⟨client, others, fromConfig_eq_ok_iff.mpr ⟨rfl, hall 0 client rfl⟩,
          ih.mpr ⟨rfl, fun index found hfound ↦ ?_⟩, rfl⟩
        rw [show start + 1 + index = start + (index + 1) by omega]
        exact hall (index + 1) found (by simpa using hfound)

/-- The file is accepted exactly if it is what is written for the clients, in their order, and the
clients are numbered by their place. -/
theorem intoClients_eq_ok_iff (file : AuthorizedKeysFile) (clients : List AuthorizedClient) :
    intoClients codec crypto isPoint file = .ok clients ↔
      file.clients = clients.map (configOf codec) ∧
        ∀ index client, clients[index]? = some client →
          Numbered crypto isPoint (indexToClientId index) client := by
  rw [intoClients, mapM_eq_ok_iff, forall₂_zipIdx_iff]
  simp only [Nat.zero_add]

/-! ### An enrolled client is let in -/

/-- The entry that `keygen` prints for an identity, under the name and with the limit that the
operator gives it. -/
def keygenEntry (codec : Base64.Codec) (crypto : Crypto) (signingKey : Octets 32) (name : String)
    (maxConcurrentSessions : Option UInt16) : AuthorizedClientConfig where
  name := name
  publicKey := encodePublicKey codec (crypto.verifyingKey signingKey)
  noisePublicKey := encodeNoisePublicKey codec (deriveNoiseStaticPublicKey crypto signingKey)
  tier := .full
  maxConcurrentSessions := maxConcurrentSessions

theorem encodePublicKey_injective : Function.Injective (encodePublicKey codec) := by
  intro key key' heq
  exact Vector.toList_inj.mp (codec.encode_injective heq)

theorem encodeNoisePublicKey_injective : Function.Injective (encodeNoisePublicKey codec) := by
  intro key key' heq
  exact Vector.toList_inj.mp (codec.encode_injective heq)

/-- The client that stands in the file in the place of an entry. -/
theorem client_of_keygenEntry {file : AuthorizedKeysFile} {clients : List AuthorizedClient}
    {signingKey : Octets 32} {name : String} {maxConcurrentSessions : Option UInt16} {index : ℕ}
    (hfile : intoClients codec crypto isPoint file = .ok clients)
    (hentry : file.clients[index]? =
      some (keygenEntry codec crypto signingKey name maxConcurrentSessions)) :
    clients[index]? = some
      { name := name
        publicKey := crypto.verifyingKey signingKey
        noisePublicKey := deriveNoiseStaticPublicKey crypto signingKey
        keyId := SpaPacket.keyIdForPublicKey crypto (crypto.verifyingKey signingKey)
        clientId := indexToClientId index
        tier := .full
        maxConcurrentSessions := maxConcurrentSessions } := by
  obtain ⟨hclients, hnumbered⟩ := (intoClients_eq_ok_iff file clients).mp hfile
  rw [hclients, List.getElem?_map, Option.map_eq_some_iff] at hentry
  obtain ⟨client, hclient, hconfig⟩ := hentry
  obtain ⟨-, hid, hkeyId⟩ := hnumbered index client hclient
  simp only [configOf, keygenEntry, AuthorizedClientConfig.mk.injEq] at hconfig
  obtain ⟨hname, hpublic, hnoise, htier, hmax⟩ := hconfig
  rw [hclient, Option.some_inj]
  cases client
  simp only at hname hpublic hnoise htier hmax hid hkeyId
  rw [hname, encodePublicKey_injective hpublic, encodeNoisePublicKey_injective hnoise, htier,
    hmax, hid, hkeyId, encodePublicKey_injective hpublic]

/-- The last client with a key identifier is the one that the roster holds under it. -/
theorem lookup_rosterOf {clients : List AuthorizedClient} {client : AuthorizedClient} {index : ℕ}
    (hclient : clients[index]? = some client)
    (hlast : ∀ later other, index < later → clients[later]? = some other →
      other.keyId ≠ client.keyId) :
    (SpaVerifier.rosterOf clients).lookup client.keyId = some client := by
  obtain ⟨hindex, hget⟩ := List.getElem?_eq_some_iff.mp hclient
  have hsplit : clients = clients.take index ++ client :: clients.drop (index + 1) := by
    rw [← hget, List.getElem_cons_drop, List.take_append_drop]
  rw [SpaVerifier.rosterOf, hsplit, List.map_append, List.map_cons]
  apply HashMap.lookup_collect_append
  intro hmem
  rw [List.map_map] at hmem
  obtain ⟨other, hother, hkey⟩ := List.mem_map.mp hmem
  obtain ⟨offset, hoffset⟩ := List.mem_iff_getElem?.mp hother
  rw [List.getElem?_drop] at hoffset
  exact hlast (index + 1 + offset) other (by omega) hoffset hkey

/-- The entry that `keygen` prints for an identity, as the last one with its key identifier in a
file that is accepted, lets the identity in.  A server that runs with the file accepts every packet
that the identity seals for it in time, with a fresh counter and from the right address, and
expects the Noise key that the identity uses in the handshake. -/
theorem keygen_entry_lets_in (hcorrect : crypto.Correct) (toml : Toml) (file : AuthorizedKeysFile)
    (clients : List AuthorizedClient) (signingKey : Octets 32) (name : String)
    (maxConcurrentSessions : Option UInt16) (index : ℕ)
    (hfile : intoClients codec crypto isPoint file = .ok clients)
    (hentry : file.clients[index]? =
      some (keygenEntry codec crypto signingKey name maxConcurrentSessions))
    (hlast : ∀ later other, index < later → clients[later]? = some other →
      other.keyId ≠ SpaPacket.keyIdForPublicKey crypto (crypto.verifyingKey signingKey))
    (verifier : SpaVerifier) (serverPrivate : Octets 32)
    (hroster : verifier.clients = SpaVerifier.rosterOf clients)
    (hserves : verifier.Serves crypto serverPrivate) (mode : SpaMode)
    (timestampMs counter nowMs : UInt64) (allowIp : SpaAllowIp) (padding : Bytes)
    (ephemeralSecret : Octets 32) (source : Ipv4Addr) (files : FileSystem)
    (fault : Option SaveFault) (hpadding : padding.length ≤ 33)
    (hsource : ∀ ip, allowIp = .explicit ip → ip = source)
    (hwindow : absDiff nowMs timestampMs ≤ verifier.timeWindowMs)
    (hfresh : verifier.highestCounter (SpaPacket.keyIdForPublicKey crypto
      (crypto.verifyingKey signingKey)) < counter)
    (hpersist : ((verifier.recordCounter (SpaPacket.honestPacket crypto signingKey mode timestampMs
      counter allowIp (crypto.x25519Public serverPrivate) ephemeralSecret)).persistCounters toml
        files fault).2 = .ok ()) :
    ∃ accept, (verifier.verify crypto toml files (SpaPacket.buildWithPadding crypto signingKey mode
        timestampMs counter allowIp padding (crypto.x25519Public serverPrivate) ephemeralSecret)
          source nowMs fault).result = .ok accept ∧
      accept.clientName = name ∧ accept.clientId.toNat = min (index + 1) 65535 ∧
      accept.maxConcurrentSessions = maxConcurrentSessions ∧
      verifyClientNoiseStatic (some (crypto.x25519Public
        (deriveNoiseStaticPrivateKey crypto signingKey)).toList) accept.noisePublicKey = true := by
  have hclient := client_of_keygenEntry hfile hentry
  have hlookup := lookup_rosterOf hclient hlast
  rw [← hroster] at hlookup
  obtain ⟨-, -, hopen⟩ := SpaPacket.openWire_buildWithPadding hcorrect signingKey mode timestampMs
    counter allowIp hpadding serverPrivate ephemeralSecret
  have hverify := SpaPacket.verify_honestPacket hcorrect signingKey mode timestampMs counter
    allowIp (crypto.x25519Public serverPrivate) ephemeralSecret
  have hbound : (SpaPacket.honestPacket crypto signingKey mode timestampMs counter allowIp
      (crypto.x25519Public serverPrivate) ephemeralSecret).usePacketSource = false →
        allowIp.ipBytes = source := by
    intro hexplicit
    cases allowIp with
    | explicit ip => exact hsource ip rfl
    | packetSource => simp [SpaPacket.honestPacket] at hexplicit
  have hresult := Daemon.verify_of_welcomes hserves hopen hverify
    ⟨hlookup, rfl, rfl, hwindow, hbound, hfresh⟩ hpersist
  refine ⟨_, hresult, rfl, toNat_indexToClientId index, rfl, ?_⟩
  simp [verifyClientNoiseStatic, SpaVerifier.acceptOf, deriveNoiseStaticPublicKey]

end

/-! ### A sample file -/

namespace Sample

open Ghostbro.Sample

def codec : Base64.Codec := Base64.standard.codec

def file : AuthorizedKeysFile :=
  ⟨[keygenEntry codec Crypto.transparent (Vector.replicate 32 6) "bob" none,
    keygenEntry codec Crypto.transparent alice "alice" (some 2)]⟩

def clientOf (signingKey : Octets 32) (name : String) (maxConcurrentSessions : Option UInt16)
    (clientId : UInt16) : AuthorizedClient where
  name := name
  publicKey := signingKey
  noisePublicKey := deriveNoiseStaticPublicKey Crypto.transparent signingKey
  keyId := SpaPacket.keyIdForPublicKey Crypto.transparent signingKey
  clientId := clientId
  tier := .full
  maxConcurrentSessions := maxConcurrentSessions

def clients : List AuthorizedClient :=
  [clientOf (Vector.replicate 32 6) "bob" none 1, clientOf alice "alice" (some 2) 2]

theorem intoClients_file :
    intoClients codec Crypto.transparent (fun _ ↦ true) file = .ok clients := by
  rw [intoClients_eq_ok_iff]
  refine ⟨rfl, fun index client hclient ↦ ?_⟩
  match index with
  | 0 =>
    obtain rfl : _ = client := Option.some.inj hclient
    exact ⟨rfl, by decide, rfl⟩
  | 1 =>
    obtain rfl : _ = client := Option.some.inj hclient
    exact ⟨rfl, by decide, rfl⟩
  | _ + 2 => simp [clients] at hclient

end Sample

/-- The second client of the sample file is let in. -/
theorem keygen_entry_lets_in_sample :
    let verifier := SpaVerifier.fromCounters Crypto.transparent Sample.clients 30 ∅ none
      Ghostbro.Sample.serverPrivate
    ∃ accept, (verifier.verify Crypto.transparent Toml.plain ∅
        (SpaPacket.buildWithPadding Crypto.transparent Ghostbro.Sample.alice .udp 1000 7
          .packetSource [] (Crypto.transparent.x25519Public Ghostbro.Sample.serverPrivate)
            (Vector.replicate 32 3)) Ghostbro.Sample.source 2000 none).result = .ok accept ∧
      accept.clientName = "alice" ∧ accept.clientId = 2 := by
  intro verifier
  have hlast : ∀ later other, 1 < later → Sample.clients[later]? = some other →
      other.keyId ≠ SpaPacket.keyIdForPublicKey Crypto.transparent
        (Crypto.transparent.verifyingKey Ghostbro.Sample.alice) := by
    intro later other hlater hother
    rw [List.getElem?_eq_none (Nat.succ_le_of_lt hlater)] at hother
    cases hother
  obtain ⟨accept, haccept, hname, hid, -, -⟩ :=
    keygen_entry_lets_in Crypto.transparent_correct Toml.plain Sample.file Sample.clients
      Ghostbro.Sample.alice "alice" (some 2) 1 Sample.intoClients_file rfl hlast verifier
      Ghostbro.Sample.serverPrivate rfl (SpaVerifier.serves_fromCounters _ _ _ _ _ _) .udp 1000 7
      2000 .packetSource [] (Vector.replicate 32 3) Ghostbro.Sample.source ∅ none (by decide)
      (by simp) (by decide +kernel) (by decide +kernel) rfl
  exact ⟨accept, haccept, hname, UInt16.toNat_inj.mp hid⟩

end Ghostbro.AuthorizedKeys
