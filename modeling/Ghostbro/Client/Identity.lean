import Ghostbro.Client.Counter
import Ghostbro.Client.Enrollment
import Ghostbro.Common.KeyText
import Ghostbro.Relay.Confinement
import Ghostbro.Server.Decoy
import Ghostbro.Server.StaticKey

/-!
# The identity of a client

`keygen` writes an identity to five files: the signing key, encrypted under a passphrase or as
plaintext for debugging, its public key, its key identifier, its Noise key and a counter.  The
other commands read the signing key back and derive all else from it, and `next_counter` finds the
counter next to the key.  `server_keygen` writes the Noise pair of a server: the server loads the
private file, and the public file is what a client is given.  What is read back has to be what was
generated.

The `toml` crate, base64, Argon2 and the cryptography are parameters.
-/

namespace Ghostbro.Identity

open Relay (isWhitespace utf8)
open Disk Disk.FileM Keys Enrollment
open StaticKey (trim keyLine trim_keyLine)

/-- `EncryptedIdentityParams`. -/
structure EncryptedIdentityParams where
  memoryKib : UInt32
  iterations : UInt32
  parallelism : UInt32
  deriving DecidableEq

structure EncryptedIdentityKey where
  version : UInt8
  kdf : String
  aead : String
  params : EncryptedIdentityParams
  salt : String
  nonce : String
  ciphertext : String
  deriving DecidableEq

def identityKeyVersion : UInt8 := 1

def identityKeyKdf : String := "argon2id"

def identityKeyAead : String := "chacha20poly1305"

def argon2MemoryKib : UInt32 := 64 * 1024

def argon2Iterations : UInt32 := 3

def argon2Parallelism : UInt32 := 1

def nonceLen : ℕ := 12

/-- The `toml` crate on encrypted identities, which refuses the line of a plaintext key: what
stands before the padding would be a key without a value. -/
structure IdentityToml (codec : Base64.Codec) where
  toStringPretty : EncryptedIdentityKey → Option String
  fromStr : String → Option EncryptedIdentityKey
  fromStr_toStringPretty : ∀ {identity text},
    toStringPretty identity = some text → fromStr text = some identity
  fromStr_line : ∀ signingKey, fromStr (encodeSigningKey codec signingKey ++ "\n") = none

/-- `hash_password_into` with the memory, the iterations, the lanes, the password and the salt. -/
abbrev Argon2 := UInt32 → UInt32 → UInt32 → Bytes → Bytes → Option (Octets 32)

section

variable (faults : Faults) {codec : Base64.Codec} (toml : IdentityToml codec) (crypto : Crypto)
  (argon2 : Argon2) (current : Location)

/-! ### The encrypted key -/

def deriveIdentityKey (passphrase : String) (salt : Bytes) : Option (Octets 32) :=
  argon2 argon2MemoryKib argon2Iterations argon2Parallelism (utf8 passphrase) salt

def encryptSigningKeyWithSaltNonce (signingKey : Octets 32) (passphrase : String)
    (salt nonce : Bytes) : Option String := do
  if nonce.length ≠ nonceLen then none
  else
    let key ← deriveIdentityKey argon2 passphrase salt
    let ciphertext := crypto.aeadEncrypt key (readArray 12 nonce 0) [] signingKey.toList
    toml.toStringPretty
      { version := identityKeyVersion
        kdf := identityKeyKdf
        aead := identityKeyAead
        params := ⟨argon2MemoryKib, argon2Iterations, argon2Parallelism⟩
        salt := codec.encode salt
        nonce := codec.encode nonce
        ciphertext := codec.encode ciphertext }

def decryptSigningKey (codec : Base64.Codec) (identity : EncryptedIdentityKey)
    (passphrase : String) : Option (Octets 32) := do
  if identity.version ≠ identityKeyVersion then none
  else if identity.kdf ≠ identityKeyKdf then none
  else if identity.aead ≠ identityKeyAead then none
  else if identity.params.memoryKib ≠ argon2MemoryKib ∨
      identity.params.iterations ≠ argon2Iterations ∨
      identity.params.parallelism ≠ argon2Parallelism then none
  else
    let salt ← codec.decode identity.salt
    let nonce ← codec.decode identity.nonce
    let ciphertext ← codec.decode identity.ciphertext
    if nonce.length ≠ nonceLen then none
    else
      let key ← deriveIdentityKey argon2 passphrase salt
      let plaintext ← crypto.aeadDecrypt key (readArray 12 nonce 0) [] ciphertext
      if plaintext.length ≠ 32 then none else some (readArray 32 plaintext 0)

/-! ### The files -/

/-- `prompt_new_passphrase` on what is typed twice. -/
def promptNewPassphrase (passphrase confirm : String) : Option String :=
  if passphrase ≠ confirm then none else if passphrase = "" then none else some passphrase

/-- `keygen` for the key that was drawn, with what is typed and the salt and nonce that are drawn
for an encrypted key. -/
def keygen (output : String) (plaintextDebug : Bool) (signingKey : Octets 32)
    (passphrase confirm : String) (salt : Octets 16) (nonce : Octets 12) : FileM Unit := do
  let publicKey := crypto.verifyingKey signingKey
  let keyId := SpaPacket.keyIdForPublicKey crypto publicKey
  let noisePublicKey := deriveNoiseStaticPublicKey crypto signingKey
  if plaintextDebug then
    writeFile faults (resolve current (output ++ ".key"))
      (utf8 (encodeSigningKey codec signingKey ++ "\n"))
  else
    let passphrase ← ofOption (promptNewPassphrase passphrase confirm)
    let encrypted ← ofOption (encryptSigningKeyWithSaltNonce toml crypto argon2 signingKey
      passphrase salt.toList nonce.toList)
    writeFile faults (resolve current (output ++ ".key")) (utf8 encrypted)
  writeFile faults (resolve current (output ++ ".pub"))
    (utf8 (encodePublicKey codec publicKey ++ "\n"))
  writeFile faults (resolve current (output ++ ".keyid")) (utf8 (keyIdHex keyId ++ "\n"))
  writeFile faults (resolve current (output ++ ".noise"))
    (utf8 (encodeNoisePublicKey codec noisePublicKey ++ "\n"))
  writeFile faults (resolve current (output ++ ".counter")) (utf8 "0\n")

/-- `server_keygen` for what `generate_keypair` returns. -/
def serverKeygen {derive : Bytes → Bytes} (codec : Base64.Codec) (output : String)
    (generated : Option (StaticKey.Keypair derive)) : FileM Unit := do
  let keypair ← ofOption generated
  writeFile faults (resolve current (output ++ ".key")) (utf8 (keyLine codec keypair.privateKey))
  writeFile faults (resolve current (output ++ ".pub")) (utf8 (keyLine codec keypair.publicKey))

/-- The signing key in the text of its file. -/
def signingKeyOf (contents passphrase : String) : Option (Octets 32) :=
  match toml.fromStr contents with
  | some identity => decryptSigningKey crypto argon2 codec identity passphrase
  | none => (decodeSigningKey codec (trim contents)).toOption

/-- `read_signing_key`, with what is typed if the key is encrypted. -/
def readSigningKey (path passphrase : String) : FileM (Octets 32) := do
  let contents ← readToString faults current path
  ofOption (signingKeyOf toml crypto argon2 contents passphrase)

/-- `default_counter_path`, as the location that it leads to. -/
def defaultCounterPath (identityKey : String) : Location :=
  if Decoy.extension identityKey = some "key" then
    Relay.withExtension (resolve current identityKey) "counter"
  else resolve current (identityKey ++ ".counter")

variable {faults toml crypto argon2 current}

/-! ### The encrypted key opens again -/

theorem decrypt_of_encrypt (hcorrect : crypto.Correct) {signingKey : Octets 32}
    {passphrase text : String} {salt nonce : Bytes}
    (h : encryptSigningKeyWithSaltNonce toml crypto argon2 signingKey passphrase salt nonce =
      some text) :
    ∃ identity, toml.fromStr text = some identity ∧
      decryptSigningKey crypto argon2 codec identity passphrase = some signingKey := by
  unfold encryptSigningKeyWithSaltNonce at h
  split at h
  · cases h
  · next hnonce =>
    rw [Option.bind_eq_bind, Option.bind_eq_some_iff] at h
    obtain ⟨key, hkey, htext⟩ := h
    refine ⟨_, toml.fromStr_toStringPretty htext, ?_⟩
    have hlength : ¬signingKey.toList.length ≠ 32 := by simp
    simp only [decryptSigningKey, ne_eq, not_true_eq_false, if_false, or_self, codec.decode_encode,
      Option.bind_eq_bind, Option.bind_some, hkey, hcorrect.decrypts, readArray_toList]
    rw [if_neg hnonce, if_neg hlength]

/-! ### Five files next to each other -/

/-- Text behind a path only changes its last name. -/
theorem components_append (path : String) :
    ∃ front name, (name = "" ↔ path = "" ∨ path.toList.getLast? = some '/') ∧
      ∀ text, '/' ∉ text.toList → components (path ++ text) = front ++ [name ++ text] := by
  by_cases hslash : '/' ∈ path.toList
  · cases hsplit : Text.rsplitOnce '/' path.toList with
    | none => exact absurd hslash (Text.rsplitOnce_eq_none.mp hsplit)
    | some parts =>
      obtain ⟨before, after⟩ := parts
      obtain ⟨hparts, hafter⟩ := Text.rsplitOnce_eq_some.mp hsplit
      refine ⟨components (String.ofList before), String.ofList after, ?_, fun text htext ↦ ?_⟩
      · have hne : path ≠ "" := by
          rintro rfl
          exact absurd hslash (by simp)
        rw [String.ofList_eq_empty_iff, hparts, or_iff_right hne]
        cases List.eq_nil_or_concat after with
        | inl hnil => simp [hnil]
        | inr hconcat =>
          obtain ⟨init, last, rfl⟩ := hconcat
          rw [List.concat_eq_append] at hafter ⊢
          have hlast : last ≠ '/' := by
            rintro rfl
            exact hafter (by simp)
          rw [← List.cons_append, ← List.append_assoc, List.getLast?_concat]
          simp [hlast]
      have hjoined : path ++ text =
          String.ofList before ++ "/" ++ (String.ofList after ++ text) := by
        apply String.toList_inj.mp
        simp [hparts]
      have hplain : '/' ∉ (String.ofList after ++ text).toList := by
        rw [String.toList_append, String.toList_ofList, List.mem_append, not_or]
        exact ⟨hafter, htext⟩
      rw [hjoined, components_append_slash, components_of_plain hplain]
  · refine ⟨[], path, ?_, fun text htext ↦ components_of_plain ?_⟩
    · rw [iff_self_or]
      intro hlast
      exact absurd (List.mem_of_getLast? hlast) hslash
    · rw [String.toList_append, List.mem_append, not_or]
      exact ⟨hslash, htext⟩

/-- A dot and an extension of at least two symbols. -/
structure IsSuffix (text : String) : Prop where
  dot : text.toList.head? = some '.'
  slash : '/' ∉ text.toList
  length : 3 ≤ text.length

theorem ne_of_isSuffix {text : String} (h : IsSuffix text) (name : String) :
    name ++ text ≠ "" ∧ name ++ text ≠ "." ∧ name ++ text ≠ ".." := by
  have hlength : 3 ≤ (name ++ text).length := by
    rw [String.length_append]
    exact h.length.trans (Nat.le_add_left _ _)
  refine ⟨?_, ?_, ?_⟩ <;> intro heq <;> rw [heq] at hlength <;> exact absurd hlength (by decide)

/-- The suffixes of the five files. -/
def suffixes : List String := [".key", ".pub", ".keyid", ".noise", ".counter"]

theorem isSuffix_of_mem {text : String} (h : text ∈ suffixes) : IsSuffix text := by
  simp only [suffixes, List.mem_cons, List.not_mem_nil, or_false] at h
  rcases h with rfl | rfl | rfl | rfl | rfl <;> exact ⟨rfl, by decide, by decide⟩

/-- Suffixes of one path make files of one directory, and the last name is the file name. -/
theorem resolve_append (current : Location) (path : String) :
    ∃ parent name, (name = "" ↔ path = "" ∨ path.toList.getLast? = some '/') ∧
      ∀ text, IsSuffix text → resolve current (path ++ text) = parent ++ [name ++ text] ∧
        Decoy.fileName (path ++ text) = some (name ++ text) := by
  obtain ⟨front, name, hname, hcomponents⟩ := components_append path
  refine ⟨front.foldl enter (if path.toList.head? = some '/' then [] else current), name, hname,
    fun text htext ↦ ?_⟩
  obtain ⟨hempty, hdot, hparent⟩ := ne_of_isSuffix htext name
  have hhead : (path ++ text).toList.head? = some '/' ↔ path.toList.head? = some '/' := by
    rw [String.toList_append]
    cases path.toList with
    | nil =>
      rw [List.nil_append, htext.dot]
      simp
    | cons first rest => simp
  constructor
  · rw [resolve, hcomponents text htext.slash, List.foldl_append, List.foldl_cons, List.foldl_nil,
      enter, if_neg (not_or.mpr ⟨hempty, hdot⟩), if_neg hparent]
    simp only [hhead]
  · have hnormal : Links.component (name ++ text) = some (.normal (name ++ text)) := by
      simp [Links.component, hempty, hdot, hparent]
    rw [Decoy.fileName, Links.pathComponents, hcomponents text htext.slash, List.filterMap_append,
      List.filterMap_cons_some hnormal, List.filterMap_nil, ← List.append_assoc,
      List.getLast?_concat]

theorem resolve_append_inj {path text text' : String} (h : IsSuffix text) (h' : IsSuffix text')
    (heq : resolve current (path ++ text) = resolve current (path ++ text')) : text = text' := by
  obtain ⟨parent, name, -, hresolve⟩ := resolve_append current path
  rw [(hresolve text h).1, (hresolve text' h').1] at heq
  exact (String.append_right_inj _).mp (List.singleton_inj.mp (List.append_cancel_left heq))

/-! ### The counter is next to the key -/

theorem splitAtDot_append {stem extension : String} (hstem : stem ≠ "")
    (hdot : '.' ∉ extension.toList) :
    Path.splitAtDot (stem ++ "." ++ extension) = (stem, some extension) := by
  have hlist : (stem ++ "." ++ extension).toList = stem.toList ++ '.' :: extension.toList := by simp
  have hreverse : (stem ++ "." ++ extension).toList.reverse =
      extension.toList.reverse ++ '.' :: stem.toList.reverse := by simp
  have hall : ∀ symbol ∈ extension.toList.reverse, decide (symbol ≠ '.') = true := by
    intro symbol hsymbol
    rw [decide_eq_true_iff]
    exact ne_of_mem_of_not_mem (List.mem_reverse.mp hsymbol) hdot
  have hbefore : stem.toList.reverse ≠ [] := by simpa using hstem
  simp only [Path.splitAtDot]
  rw [hreverse, hlist, List.takeWhile_append_of_pos hall, List.dropWhile_append_of_pos hall]
  simp [hbefore]

/-- The counter of an identity is where `next_counter` looks for it, unless the key has no name but
its extension. -/
theorem defaultCounterPath_eq_iff (current : Location) (output : String) :
    defaultCounterPath current (output ++ ".key") = resolve current (output ++ ".counter") ↔
      output ≠ "" ∧ output.toList.getLast? ≠ some '/' := by
  obtain ⟨parent, name, hname, hresolve⟩ := resolve_append current output
  obtain ⟨hkey, hkeyName⟩ := hresolve ".key" ⟨rfl, by decide, by decide⟩
  obtain ⟨hcounter, -⟩ := hresolve ".counter" ⟨rfl, by decide, by decide⟩
  have hkeyList : (name ++ ".key").toList = name.toList ++ '.' :: "key".toList := by simp
  have hextension : Decoy.extension (output ++ ".key") =
      if name = "" then none else some "key" := by
    rw [Decoy.extension, hkeyName]
    simp only [Option.bind_eq_bind, Option.bind_some, hkeyList]
    rw [Text.rsplitOnce_append name.toList (by decide), Option.bind_some]
    simp
  rw [← not_or, ← hname, defaultCounterPath, hextension]
  by_cases hempty : name = ""
  · obtain ⟨hboth, -⟩ := hresolve ".key.counter" ⟨rfl, by decide, by decide⟩
    have hjoined : output ++ ".key" ++ ".counter" = output ++ ".key.counter" := by
      rw [String.append_assoc]
      rfl
    rw [if_pos hempty, if_neg (by decide), hjoined, hboth, hcounter]
    simp [hempty]
  · have hsplit : Path.splitAtDot (name ++ ".key") = (name, some "key") := by
      have hjoined : name ++ ".key" = name ++ "." ++ "key" := by
        rw [String.append_assoc]
        rfl
      rw [hjoined, splitAtDot_append hempty (by decide)]
    rw [if_neg hempty, if_pos rfl, hkey, hcounter, Relay.withExtension, List.dropLast_concat,
      List.getLast?_concat]
    simp [hsplit, hempty, String.append_assoc]

/-! ### What `keygen` leaves -/

theorem signingKeyOf_plaintext (signingKey : Octets 32) (passphrase : String) :
    signingKeyOf toml crypto argon2 (encodeSigningKey codec signingKey ++ "\n") passphrase =
      some signingKey := by
  have htrim : trim (encodeSigningKey codec signingKey ++ "\n") =
      encodeSigningKey codec signingKey := trim_keyLine signingKey.toList
  rw [signingKeyOf, toml.fromStr_line, htrim, decodeSigningKey_eq_ok_iff.mpr rfl]
  rfl

/-- The texts behind the suffixes. -/
def identityTexts (codec : Base64.Codec) (crypto : Crypto) (signingKey : Octets 32)
    (keyText : String) : List (String × String) :=
  let publicKey := crypto.verifyingKey signingKey
  [(".key", keyText), (".pub", encodePublicKey codec publicKey ++ "\n"),
    (".keyid", keyIdHex (SpaPacket.keyIdForPublicKey crypto publicKey) ++ "\n"),
    (".noise", encodeNoisePublicKey codec (deriveNoiseStaticPublicKey crypto signingKey) ++ "\n"),
    (".counter", "0\n")]

theorem eq_of_promptNewPassphrase {passphrase confirm typed : String}
    (h : promptNewPassphrase passphrase confirm = some typed) : typed = passphrase := by
  unfold promptNewPassphrase at h
  split_ifs at h
  exact (Option.some.inj h).symm

theorem of_writeFile {location : Location} {bytes : Bytes} {store after : Store}
    (h : writeFile faults location bytes store = (some (), after)) :
    store.insert location bytes = after := by
  unfold writeFile at h
  split at h
  · cases h
  · exact (Prod.mk.inj h).2

variable {output passphrase confirm : String} {plaintextDebug : Bool} {signingKey : Octets 32}
  {salt : Octets 16} {nonce : Octets 12} {store after : Store}

/-- The text of the key file. -/
def keyText (toml : IdentityToml codec) (crypto : Crypto) (argon2 : Argon2)
    (plaintextDebug : Bool) (signingKey : Octets 32) (passphrase confirm : String)
    (salt : Octets 16) (nonce : Octets 12) : Option String :=
  if plaintextDebug then some (encodeSigningKey codec signingKey ++ "\n")
  else (promptNewPassphrase passphrase confirm).bind fun typed ↦
    encryptSigningKeyWithSaltNonce toml crypto argon2 signingKey typed salt.toList nonce.toList

/-- The key file holds the signing key for who types the passphrase again. -/
theorem signingKeyOf_keyText (hcorrect : crypto.Correct) {text : String}
    (h : keyText toml crypto argon2 plaintextDebug signingKey passphrase confirm salt nonce =
      some text) :
    signingKeyOf toml crypto argon2 text passphrase = some signingKey := by
  unfold keyText at h
  split at h
  · rw [← Option.some.inj h]
    exact signingKeyOf_plaintext signingKey passphrase
  · obtain ⟨typed, htyped, hencrypt⟩ := Option.bind_eq_some_iff.mp h
    obtain ⟨identity, hidentity, hdecrypt⟩ := decrypt_of_encrypt hcorrect hencrypt
    rw [eq_of_promptNewPassphrase htyped] at hdecrypt
    rw [signingKeyOf, hidentity]
    exact hdecrypt

/-- What `keygen` does once it has the text of the key file. -/
theorem keygen_eq :
    keygen faults toml crypto argon2 current output plaintextDebug signingKey passphrase confirm
      salt nonce = (do
    let text ← ofOption
      (keyText toml crypto argon2 plaintextDebug signingKey passphrase confirm salt nonce)
    writeFile faults (resolve current (output ++ ".key")) (utf8 text)
    writeFile faults (resolve current (output ++ ".pub"))
      (utf8 (encodePublicKey codec (crypto.verifyingKey signingKey) ++ "\n"))
    writeFile faults (resolve current (output ++ ".keyid"))
      (utf8 (keyIdHex (SpaPacket.keyIdForPublicKey crypto (crypto.verifyingKey signingKey)) ++
        "\n"))
    writeFile faults (resolve current (output ++ ".noise"))
      (utf8 (encodeNoisePublicKey codec (deriveNoiseStaticPublicKey crypto signingKey) ++ "\n"))
    writeFile faults (resolve current (output ++ ".counter")) (utf8 "0\n")) := by
  cases plaintextDebug with
  | true => rfl
  | false =>
    simp only [keygen, keyText, Bool.false_eq_true, if_false]
    cases promptNewPassphrase passphrase confirm with
    | none => rfl
    | some typed =>
      rw [Option.bind_some]
      rfl

/-- A call that succeeds has written all five files. -/
theorem of_keygen (h : keygen faults toml crypto argon2 current output plaintextDebug signingKey
      passphrase confirm salt nonce store = (some (), after)) :
    ∃ text, keyText toml crypto argon2 plaintextDebug signingKey passphrase confirm salt nonce =
        some text ∧
      ((identityTexts codec crypto signingKey text).map fun file ↦
        (resolve current (output ++ file.1), utf8 file.2)).foldl
          (fun files file ↦ files.insert file.1 file.2) store = after := by
  rw [keygen_eq] at h
  simp only [bind_eq_some_iff] at h
  obtain ⟨text, begun, htext, ⟨⟩, afterKey, hkey, ⟨⟩, afterPub, hpub, ⟨⟩, afterKeyId, hkeyId, ⟨⟩,
    afterNoise, hnoise, hcounter⟩ := h
  obtain ⟨hsome, rfl⟩ := ofOption_eq_some_iff.mp htext
  refine ⟨text, hsome, ?_⟩
  rw [← of_writeFile hcounter, ← of_writeFile hnoise, ← of_writeFile hkeyId, ← of_writeFile hpub,
    ← of_writeFile hkey]
  rfl

/-- Each of the five files holds its text. -/
theorem lookup_of_keygen (h : keygen faults toml crypto argon2 current output plaintextDebug
      signingKey passphrase confirm salt nonce store = (some (), after)) :
    ∃ text, keyText toml crypto argon2 plaintextDebug signingKey passphrase confirm salt nonce =
        some text ∧
      ∀ file ∈ identityTexts codec crypto signingKey text,
        after.lookup (resolve current (output ++ file.1)) = some (utf8 file.2) := by
  obtain ⟨text, htext, hafter⟩ := of_keygen h
  refine ⟨text, htext, fun file hfile ↦ ?_⟩
  have hsuffixes : (identityTexts codec crypto signingKey text).map Prod.fst = suffixes := rfl
  have hnodup : (((identityTexts codec crypto signingKey text).map fun file ↦
      (resolve current (output ++ file.1), utf8 file.2)).map Prod.fst).Nodup := by
    have hmap : ((identityTexts codec crypto signingKey text).map fun file ↦
        (resolve current (output ++ file.1), utf8 file.2)).map Prod.fst =
          suffixes.map fun suffix ↦ resolve current (output ++ suffix) := by
      rw [← hsuffixes, List.map_map, List.map_map]
      rfl
    rw [hmap]
    apply List.Nodup.map_on _ (by decide)
    intro suffix hmem suffix' hmem' heq
    exact resolve_append_inj (isSuffix_of_mem hmem) (isSuffix_of_mem hmem') heq
  rw [← hafter, HashMap.lookup_foldl_insert hnodup]
  apply Or.inl
  exact List.mem_map.mpr ⟨file, hfile, rfl⟩

/-! ### Reading it back -/

variable {faults' : Faults} {path contents : String} {isPoint : Octets 32 → Bool}

theorem readToString_of_lookup
    (hfile : store.lookup (resolve current path) = some (utf8 contents))
    (hread : faults.refuses (.read (resolve current path)) = false) :
    readToString faults current path store = (some contents, store) := by
  have hbytes : readFile faults (resolve current path) store = (some (utf8 contents), store) := by
    rw [readFile, hread, hfile]
    rfl
  rw [readToString, bind_of_some hbytes, fromUTF8?_utf8]
  rfl

theorem readNoisePublicKey_of_lookup {key : Bytes} (hlength : key.length = 32)
    (hfile : store.lookup (resolve current path) = some (utf8 (keyLine codec key)))
    (hread : faults.refuses (.read (resolve current path)) = false) :
    readNoisePublicKey faults codec.decode current path store = (some key, store) := by
  have htrim : String.ofList (Text.trim isWhitespace (keyLine codec key).toList) =
      codec.encode key := trim_keyLine key
  have htext : String.ofList (Text.trim isWhitespace (codec.encode key).toList) =
      codec.encode key := by
    rw [← htrim, String.toList_ofList, Text.trim_trim]
  have hkey : Enrollment.decodeNoisePublicKey codec.decode (codec.encode key) = some key := by
    simp [Enrollment.decodeNoisePublicKey, htext, hlength]
  rw [readNoisePublicKey, bind_of_some (readToString_of_lookup hfile hread), htrim, hkey]
  rfl

/-- The identity that `keygen` writes is the one that later commands read: the signing key from the
key file and the passphrase, and next to it the two public keys and the identifier that belong to
it.  The counter starts at zero where `next_counter` looks for it, unless the identity has no
name. -/
theorem identity_reads_back (hcorrect : crypto.Correct)
    (hpoint : isPoint (crypto.verifyingKey signingKey) = true)
    (hread : ∀ location, faults'.refuses (.read location) = false)
    (h : keygen faults toml crypto argon2 current output plaintextDebug signingKey passphrase
      confirm salt nonce store = (some (), after)) :
    readSigningKey faults' toml crypto argon2 current (output ++ ".key") passphrase after =
        (some signingKey, after) ∧
      (∃ line, readToString faults' current (output ++ ".pub") after = (some line, after) ∧
        decodePublicKey codec isPoint (trim line) = .ok (crypto.verifyingKey signingKey)) ∧
      readToString faults' current (output ++ ".keyid") after =
        (some (keyIdHex (SpaPacket.keyIdForPublicKey crypto (crypto.verifyingKey signingKey)) ++
          "\n"), after) ∧
      readNoisePublicKey faults' codec.decode current (output ++ ".noise") after =
        (some (deriveNoiseStaticPublicKey crypto signingKey).toList, after) ∧
      (output ≠ "" → output.toList.getLast? ≠ some '/' →
        ∃ line, after.lookup (defaultCounterPath current (output ++ ".key")) = some (utf8 line) ∧
          Client.stored (some line) = some 0) := by
  obtain ⟨text, htext, hlookup⟩ := lookup_of_keygen h
  simp only [identityTexts, List.forall_mem_cons, List.not_mem_nil, false_imp_iff, implies_true,
    and_true] at hlookup
  obtain ⟨hkey, hpub, hkeyId, hnoise, hcounter⟩ := hlookup
  refine ⟨?_, ⟨_, readToString_of_lookup hpub (hread _), ?_⟩,
    readToString_of_lookup hkeyId (hread _),
    readNoisePublicKey_of_lookup Vector.length_toList hnoise (hread _),
    fun hempty hslash ↦ ⟨"0\n", ?_, by decide⟩⟩
  · rw [readSigningKey, bind_of_some (readToString_of_lookup hkey (hread _)),
      signingKeyOf_keyText hcorrect htext]
    rfl
  · have htrim : trim (encodePublicKey codec (crypto.verifyingKey signingKey) ++ "\n") =
        encodePublicKey codec (crypto.verifyingKey signingKey) :=
      trim_keyLine (crypto.verifyingKey signingKey).toList
    rw [htrim]
    exact decodePublicKey_eq_ok_iff.mpr ⟨rfl, hpoint⟩
  · rw [(defaultCounterPath_eq_iff current output).mpr ⟨hempty, hslash⟩]
    exact hcounter

/-- The pair that `server_keygen` writes is the one in use: a server that is started with the key
file has its private key, and a client that is given the public file pins the key derived from
that. -/
theorem server_identity_reads_back {derive : Bytes → Bytes}
    {generated : Option (StaticKey.Keypair derive)}
    (hread : ∀ location, faults'.refuses (.read location) = false)
    (h : serverKeygen faults current codec output generated store = (some (), after)) :
    ∃ keypair, generated = some keypair ∧
      (∃ line, readToString faults' current (output ++ ".key") after = (some line, after) ∧
        ∀ (path : Path) (files : FileSystem) (optedIn : Bool)
          (other : Option (StaticKey.Keypair derive)) (starting : StaticKey.Faults),
          starting.read = false → files.lookup path = some line →
            StaticKey.loadStaticPrivateKey codec path optedIn other starting files =
              (files, .ok keypair.privateKey)) ∧
      readNoisePublicKey faults' codec.decode current (output ++ ".pub") after =
        (some (derive keypair.privateKey), after) := by
  simp only [serverKeygen, bind_eq_some_iff] at h
  obtain ⟨keypair, begun, hgenerated, ⟨⟩, afterKey, hkey, hpub⟩ := h
  obtain ⟨hsome, rfl⟩ := ofOption_eq_some_iff.mp hgenerated
  have hne : resolve current (output ++ ".key") ≠ resolve current (output ++ ".pub") := by
    intro heq
    exact absurd
      (resolve_append_inj (isSuffix_of_mem (by decide)) (isSuffix_of_mem (by decide)) heq)
      (by decide)
  have hkeyFile : after.lookup (resolve current (output ++ ".key")) =
      some (utf8 (keyLine codec keypair.privateKey)) := by
    rw [← of_writeFile hpub, HashMap.lookup_insert_ite, if_neg hne, ← of_writeFile hkey,
      HashMap.lookup_insert_ite, if_pos rfl]
  have hpubFile : after.lookup (resolve current (output ++ ".pub")) =
      some (utf8 (keyLine codec keypair.publicKey)) := by
    rw [← of_writeFile hpub, HashMap.lookup_insert_ite, if_pos rfl]
  refine ⟨keypair, hsome, ⟨_, readToString_of_lookup hkeyFile (hread _), ?_⟩, ?_⟩
  · intro path files optedIn other starting hstarting hfile
    rw [StaticKey.loadStaticPrivateKey_eq]
    simp [StaticKey.loadOrGenerateStaticKey, hstarting, hfile,
      StaticKey.parsePrivateKey_keyLine keypair.length_privateKey]
  · rw [← keypair.publicKey_eq]
    exact readNoisePublicKey_of_lookup keypair.length_publicKey hpubFile (hread _)

end

/-! ### A sample identity -/

namespace Sample

def codec : Base64.Codec := Base64.standard.codec

def signingKey : Octets 32 := Vector.replicate 32 5

def salt : Octets 16 := Vector.replicate 16 1

def nonce : Octets 12 := Vector.replicate 12 2

def identity : EncryptedIdentityKey where
  version := identityKeyVersion
  kdf := identityKeyKdf
  aead := identityKeyAead
  params := ⟨argon2MemoryKib, argon2Iterations, argon2Parallelism⟩
  salt := codec.encode salt.toList
  nonce := codec.encode nonce.toList
  ciphertext := codec.encode
    (Crypto.transparent.aeadEncrypt signingKey nonce [] signingKey.toList)

/-- What the crate writes for the sample, with the table last. -/
def text : String :=
  "version = 1\n" ++
  "kdf = \"argon2id\"\n" ++
  "aead = \"chacha20poly1305\"\n" ++
  "salt = \"" ++ identity.salt ++ "\"\n" ++
  "nonce = \"" ++ identity.nonce ++ "\"\n" ++
  "ciphertext = \"" ++ identity.ciphertext ++ "\"\n" ++
  "\n" ++
  "[params]\n" ++
  "memory_kib = 65536\n" ++
  "iterations = 3\n" ++
  "parallelism = 1\n"

theorem le_length_text : 55 ≤ text.length := by
  have hlines : "version = 1\n".length + "kdf = \"argon2id\"\n".length +
      "aead = \"chacha20poly1305\"\n".length = 55 := by decide
  unfold text
  repeat rw [String.length_append]
  omega

/-- A crate that knows one identity. -/
def toml : IdentityToml codec where
  toStringPretty other := if other = identity then some text else none
  fromStr contents := if contents = text then some identity else none
  fromStr_toStringPretty := by
    intro other contents h
    split_ifs at h with hother
    rw [if_pos (Option.some.inj h).symm, hother]
  fromStr_line := by
    intro key
    apply if_neg
    intro heq
    have hlength := congrArg String.length heq
    rw [String.length_append, encodeSigningKey, codec.length_encode,
      Vector.length_toList] at hlength
    have hline : (32 + 2) / 3 * 4 + "\n".length = 45 := by decide
    have htext := le_length_text
    omega

/-- A function in place of Argon2. -/
def argon2 : Argon2 := fun _ _ _ _ _ ↦ some signingKey

def faults : Faults := ⟨fun _ ↦ false, fun _ ↦ none⟩

def result : Option Unit × Store :=
  keygen faults toml Crypto.transparent argon2 ["home"] "keys/alice" false signingKey "secret"
    "secret" salt nonce ∅

theorem result_eq : result = (some (), result.2) := by
  have htext : keyText toml Crypto.transparent argon2 false signingKey "secret" "secret" salt
      nonce = some text := by
    have hprompt : promptNewPassphrase "secret" "secret" = some "secret" := by decide
    have hnonce : ¬nonce.toList.length ≠ nonceLen := by simp [nonceLen]
    simp only [keyText, Bool.false_eq_true, if_false, hprompt, Option.bind_some,
      encryptSigningKeyWithSaltNonce, readArray_toList]
    rw [if_neg hnonce]
    change (if identity = identity then some text else none) = some text
    exact if_pos rfl
  rw [result, keygen_eq, htext]
  rfl

def serverResult : Option Unit × Store :=
  serverKeygen faults ["home"] codec "keys/server" (some StaticKey.Sample.keypair) ∅

end Sample

theorem identity_reads_back_sample :
    readSigningKey Sample.faults Sample.toml Crypto.transparent Sample.argon2 ["home"]
        ("keys/alice" ++ ".key") "secret" Sample.result.2 =
          (some Sample.signingKey, Sample.result.2) ∧
      (∃ line, readToString Sample.faults ["home"] ("keys/alice" ++ ".pub") Sample.result.2 =
          (some line, Sample.result.2) ∧
        decodePublicKey Sample.codec (fun _ ↦ true) (trim line) =
          .ok (Crypto.transparent.verifyingKey Sample.signingKey)) ∧
      readToString Sample.faults ["home"] ("keys/alice" ++ ".keyid") Sample.result.2 =
        (some ("0505050505050505" ++ "\n"), Sample.result.2) ∧
      readNoisePublicKey Sample.faults Sample.codec.decode ["home"] ("keys/alice" ++ ".noise")
        Sample.result.2 =
          (some (deriveNoiseStaticPublicKey Crypto.transparent Sample.signingKey).toList,
            Sample.result.2) ∧
      ∃ line, Sample.result.2.lookup (defaultCounterPath ["home"] ("keys/alice" ++ ".key")) =
          some (utf8 line) ∧
        Client.stored (some line) = some 0 := by
  have hkeyId : keyIdHex (SpaPacket.keyIdForPublicKey Crypto.transparent
      (Crypto.transparent.verifyingKey Sample.signingKey)) = "0505050505050505" := by
    decide +kernel
  obtain ⟨hkey, hpub, hid, hnoise, hcounter⟩ :=
    @identity_reads_back _ _ _ _ _ _ _ _ _ _ _ _ _ _ _ Sample.faults (fun _ ↦ true)
      Crypto.transparent_correct rfl (fun _ ↦ rfl) Sample.result_eq
  rw [hkeyId] at hid
  exact ⟨hkey, hpub, hid, hnoise, hcounter (by decide) (by decide)⟩

theorem server_identity_reads_back_sample :
    (∃ line, readToString Sample.faults ["home"] ("keys/server" ++ ".key") Sample.serverResult.2 =
        (some line, Sample.serverResult.2) ∧
      StaticKey.loadStaticPrivateKey Sample.codec StaticKey.Sample.path false
          (some StaticKey.Sample.keypair) ⟨false, none, none⟩
          (AList.insert StaticKey.Sample.path line ∅) =
        (AList.insert StaticKey.Sample.path line ∅, .ok StaticKey.Sample.privateKey)) ∧
      readNoisePublicKey Sample.faults Sample.codec.decode ["home"] ("keys/server" ++ ".pub")
        Sample.serverResult.2 = (some StaticKey.Sample.publicKey, Sample.serverResult.2) := by
  obtain ⟨keypair, hkeypair, ⟨line, hline, hload⟩, hread⟩ :=
    @server_identity_reads_back Sample.faults Sample.codec ["home"] "keys/server" ∅
      Sample.serverResult.2 Sample.faults _ (some StaticKey.Sample.keypair) (fun _ ↦ rfl) rfl
  obtain rfl := Option.some.inj hkeypair
  have hfile : (AList.insert StaticKey.Sample.path line (∅ : FileSystem)).lookup
      StaticKey.Sample.path = some line := by
    rw [HashMap.lookup_insert_ite, if_pos rfl]
  exact ⟨⟨line, hline, hload _ _ _ _ _ rfl hfile⟩, hread⟩

end Ghostbro.Identity
