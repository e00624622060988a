import Ghostbro.Foundation.Words

/-!
# Noise frames

After the handshake a connection carries frames: two length bytes and one transport message of the
Noise session.  Server and client use the same limits, the same two-byte length and buffers of
`MAX_FRAME_LEN` bytes.  The cipher itself is `snow`, of which the code relies on three facts, the
fields of `Snow`.
-/

namespace Ghostbro.Noise

/-- `MAX_FRAME_LEN`. -/
def maxFrameLen : ℕ := 16 * 1024

/-- `NOISE_TAG_LEN`. -/
def noiseTagLen : ℕ := 16

/-- `NoiseFramedStream::max_plaintext_len`. -/
def maxPlaintextLen : ℕ := maxFrameLen - noiseTagLen

/-- One direction of a `snow::TransportState` with output buffers of `MAX_FRAME_LEN` bytes.  A
message is numbered by the messages before it. -/
structure Snow where
  writeMessage : ℕ → Bytes → Option Bytes
  readMessage : ℕ → Bytes → Option Bytes
  isSome_writeMessage : ∀ number plaintext,
    (writeMessage number plaintext).isSome ↔ plaintext.length + noiseTagLen ≤ maxFrameLen
  length_writeMessage : ∀ number plaintext message,
    writeMessage number plaintext = some message → message.length = plaintext.length + noiseTagLen
  readMessage_writeMessage : ∀ number plaintext message,
    writeMessage number plaintext = some message → readMessage number message = some plaintext

/-- `write_frame`: what it sends, unless the frame is too long for its length bytes. -/
def writeFrame (frame : Bytes) : Option Bytes :=
  if frame.length < 2 ^ 16 then some (beBytes 2 frame.length ++ frame) else none

/-- `write_encrypted_frame`, on message `number`. -/
def writeEncryptedFrame (snow : Snow) (number : ℕ) (plaintext : Bytes) : Option Bytes :=
  (snow.writeMessage number plaintext).bind writeFrame

/-- A message fits the length bytes, so it is sent as one frame. -/
theorem writeEncryptedFrame_of_writeMessage {snow : Snow} {number : ℕ} {plaintext message : Bytes}
    (h : snow.writeMessage number plaintext = some message) :
    writeEncryptedFrame snow number plaintext = some (beBytes 2 message.length ++ message) ∧
      0 < message.length ∧ message.length ≤ maxFrameLen := by
  have hlength := snow.length_writeMessage number plaintext message h
  have hfits : plaintext.length + noiseTagLen ≤ maxFrameLen :=
    (snow.isSome_writeMessage number plaintext).mp (h ▸ rfl)
  have hle : message.length ≤ maxFrameLen := hlength ▸ hfits
  have hshort : message.length < 2 ^ 16 := lt_of_le_of_lt hle (by decide)
  have hpositive : 0 < message.length := by
    rw [hlength, noiseTagLen]
    omega
  refine ⟨?_, hpositive, hle⟩
  rw [writeEncryptedFrame, h, Option.bind_some, writeFrame, if_pos hshort]

/-- A plaintext is sent exactly when its message fits the buffer. -/
theorem isSome_writeEncryptedFrame (snow : Snow) (number : ℕ) (plaintext : Bytes) :
    (writeEncryptedFrame snow number plaintext).isSome ↔ plaintext.length ≤ maxPlaintextLen := by
  have hbound : plaintext.length + noiseTagLen ≤ maxFrameLen ↔
      plaintext.length ≤ maxPlaintextLen := by
    simp only [maxPlaintextLen, maxFrameLen, noiseTagLen]
    omega
  rw [← hbound, ← snow.isSome_writeMessage number plaintext]
  cases hwrite : snow.writeMessage number plaintext with
  | none => rw [writeEncryptedFrame, hwrite, Option.bind_none]
  | some message => rw [(writeEncryptedFrame_of_writeMessage hwrite).1]; rfl

/-! ### The wire -/

variable {snow : Snow} {first number count : ℕ} {plaintexts : List Bytes} {plaintext : Bytes}

/-- What the code puts into a frame. -/
def Sendable (plaintext : Bytes) : Prop := plaintext ≠ [] ∧ plaintext.length ≤ maxPlaintextLen

theorem Sendable.exists_message (h : Sendable plaintext) (snow : Snow) (number : ℕ) :
    ∃ message, snow.writeMessage number plaintext = some message := by
  have hfits : plaintext.length + noiseTagLen ≤ maxFrameLen := by
    have hle := h.2
    simp only [maxPlaintextLen, maxFrameLen, noiseTagLen] at hle ⊢
    omega
  exact Option.isSome_iff_exists.mp ((snow.isSome_writeMessage number plaintext).mpr hfits)

/-- The frames of the plaintexts, in order; the first message has number `first`. -/
def wire (snow : Snow) : ℕ → List Bytes → Bytes
  | _, [] => []
  | first, plaintext :: rest =>
    (writeEncryptedFrame snow first plaintext).getD [] ++ wire snow (first + 1) rest

theorem wire_append (first : ℕ) (plaintexts rest : List Bytes) :
    wire snow first (plaintexts ++ rest) =
      wire snow first plaintexts ++ wire snow (first + plaintexts.length) rest := by
  induction plaintexts generalizing first with
  | nil => rfl
  | cons plaintext plaintexts ih =>
    rw [List.cons_append, wire, ih, wire, List.append_assoc, List.length_cons,
      Nat.add_assoc first 1, Nat.add_comm 1]

theorem wire_concat {frame : Bytes}
    (h : writeEncryptedFrame snow (first + plaintexts.length) plaintext = some frame) :
    wire snow first (plaintexts ++ [plaintext]) = wire snow first plaintexts ++ frame := by
  rw [wire_append, wire, wire, h]
  simp

theorem wire_split (snow : Snow) (first : ℕ) (hcount : count ≤ plaintexts.length) :
    wire snow first plaintexts = wire snow first (plaintexts.take count) ++
      wire snow (first + count) (plaintexts.drop count) := by
  have happend := @wire_append snow first (plaintexts.take count) (plaintexts.drop count)
  rw [List.take_append_drop, List.length_take_of_le hcount] at happend
  exact happend

/-! ### Reading the wire

A receiver has read some frames as a whole and a part of the next one: at first its length bytes,
and once these are complete also bytes of its message. -/

/-- A receiver that has read `bytes` holds `len` and `message` of the frame after `count` whole
ones. -/
structure Received (snow : Snow) (first : ℕ) (plaintexts : List Bytes) (bytes : Bytes) (count : ℕ)
    (len message : Bytes) : Prop where
  count_le : count ≤ plaintexts.length
  bytes_eq : bytes = wire snow first (plaintexts.take count) ++ (len ++ message)

namespace Received

variable {bytes len message : Bytes}

/-- What is on the wire behind the whole frames. -/
theorem rest (h : Received snow first plaintexts bytes count len message)
    (hwire : bytes <+: wire snow first plaintexts) :
    len ++ message <+: wire snow (first + count) (plaintexts.drop count) := by
  rw [h.bytes_eq, wire_split snow first h.count_le] at hwire
  exact (List.prefix_append_right_inj _).mp hwire

/-- A receiver that has begun a frame is at a plaintext of the sender. -/
theorem current (h : Received snow first plaintexts bytes count len message)
    (hwire : bytes <+: wire snow first plaintexts)
    (hsendable : ∀ plaintext ∈ plaintexts, Sendable plaintext) (hlen : len ≠ []) :
    ∃ plaintext rest message', plaintexts.drop count = plaintext :: rest ∧
      snow.writeMessage (first + count) plaintext = some message' ∧
      0 < message'.length ∧ message'.length ≤ maxFrameLen ∧
      len ++ message <+: beBytes 2 message'.length ++
        (message' ++ wire snow (first + count + 1) rest) := by
  have hrest := h.rest hwire
  cases hdrop : plaintexts.drop count with
  | nil =>
    rw [hdrop, wire, List.prefix_nil, List.append_eq_nil_iff] at hrest
    exact absurd hrest.1 hlen
  | cons plaintext rest =>
    have hmem : plaintext ∈ plaintexts :=
      List.mem_of_mem_drop (hdrop ▸ List.mem_cons_self : plaintext ∈ plaintexts.drop count)
    obtain ⟨message', hmessage⟩ := (hsendable plaintext hmem).exists_message snow (first + count)
    obtain ⟨hframe, hpositive, hle⟩ := writeEncryptedFrame_of_writeMessage hmessage
    rw [hdrop, wire, hframe, Option.getD_some, List.append_assoc] at hrest
    exact ⟨plaintext, rest, message', rfl, hmessage, hpositive, hle, hrest⟩

/-- Complete length bytes are those of the message that the sender made of its next plaintext, and
the bytes behind them belong to that message. -/
theorem header (h : Received snow first plaintexts bytes count len message)
    (hwire : bytes <+: wire snow first plaintexts)
    (hsendable : ∀ plaintext ∈ plaintexts, Sendable plaintext) (hlen : len.length = 2)
    (hmessage : message.length ≤ beNat len) :
    ∃ plaintext whole, plaintexts.drop count = plaintext :: plaintexts.drop (count + 1) ∧
      snow.writeMessage (first + count) plaintext = some whole ∧ beNat len = whole.length ∧
      0 < whole.length ∧ whole.length ≤ maxFrameLen ∧ message <+: whole := by
  have hnonempty : len ≠ [] := by
    rintro rfl
    cases hlen
  obtain ⟨plaintext, rest, whole, hdrop, hwrite, hpositive, hle, hbegins⟩ :=
    h.current hwire hsendable hnonempty
  have hlength : len.length = (beBytes 2 whole.length).length := by
    rw [hlen, length_beBytes]
  obtain ⟨tail, htail⟩ := hbegins
  rw [List.append_assoc] at htail
  obtain ⟨rfl, hmessages⟩ := List.append_inj htail hlength
  have hvalue : beNat (beBytes 2 whole.length) = whole.length := by
    rw [beNat_beBytes]
    exact Nat.mod_eq_of_lt (lt_of_le_of_lt hle (by decide))
  have hrest : rest = plaintexts.drop (count + 1) := by
    rw [← List.drop_drop, hdrop, List.drop_one, List.tail_cons]
  refine ⟨plaintext, whole, hrest ▸ hdrop, hwrite, hvalue, hpositive, hle, ?_⟩
  apply List.prefix_of_prefix_length_le (List.prefix_append message tail)
  · rw [hmessages]
    exact List.prefix_append whole _
  · rw [← hvalue]
    exact hmessage

/-- A complete message is read back, and the receiver stands at the next frame. -/
theorem whole (h : Received snow first plaintexts bytes count len message)
    (hwire : bytes <+: wire snow first plaintexts)
    (hsendable : ∀ plaintext ∈ plaintexts, Sendable plaintext) (hlen : len.length = 2)
    (hmessage : message.length = beNat len) :
    ∃ plaintext, snow.readMessage (first + count) message = some plaintext ∧
      plaintext ≠ [] ∧ (plaintexts.take (count + 1)).flatten =
        (plaintexts.take count).flatten ++ plaintext ∧
      Received snow first plaintexts bytes (count + 1) [] [] := by
  obtain ⟨plaintext, whole, hdrop, hwrite, hvalue, hpositive, hle, hbegins⟩ :=
    h.header hwire hsendable hlen (le_of_eq hmessage)
  obtain rfl : message = whole := hbegins.eq_of_length (hmessage.trans hvalue)
  have hlt : count < plaintexts.length := by
    by_contra hge
    rw [List.drop_eq_nil_of_le (not_lt.mp hge)] at hdrop
    cases hdrop
  have hmem : plaintext ∈ plaintexts :=
    List.mem_of_mem_drop (hdrop ▸ List.mem_cons_self : plaintext ∈ plaintexts.drop count)
  have htake : plaintexts.take (count + 1) = plaintexts.take count ++ [plaintext] := by
    have hget : plaintexts[count] = plaintext := by
      have hhead := List.drop_eq_getElem_cons hlt
      rw [hdrop] at hhead
      exact (List.cons.inj hhead).1.symm
    rw [List.take_succ_eq_append_getElem hlt, hget]
  refine ⟨plaintext, snow.readMessage_writeMessage _ _ _ hwrite, (hsendable plaintext hmem).1, ?_,
    hlt, ?_⟩
  · rw [htake]
    simp
  · have hframe := (writeEncryptedFrame_of_writeMessage hwrite).1
    have hcount : (plaintexts.take count).length = count := List.length_take_of_le h.count_le
    have hbytes := beBytes_beNat len
    rw [hlen, hvalue] at hbytes
    rw [← hcount] at hframe
    rw [h.bytes_eq, htake, wire_concat hframe, hbytes]
    simp

/-- A receiver that has read everything has read whole frames only, and all of them. -/
theorem complete (h : Received snow first plaintexts bytes count len message)
    (hall : bytes = wire snow first plaintexts)
    (hsendable : ∀ plaintext ∈ plaintexts, Sendable plaintext)
    (hpart : len.length < 2 ∧ message = [] ∨ len.length = 2 ∧ message.length < beNat len) :
    plaintexts.take count = plaintexts := by
  by_contra hne
  have hlt : count < plaintexts.length := by
    by_contra hge
    exact hne (List.take_of_length_le (not_lt.mp hge))
  have hdrop := List.drop_eq_getElem_cons hlt
  obtain ⟨whole, hwhole⟩ :=
    (hsendable _ (List.getElem_mem hlt)).exists_message snow (first + count)
  have hrest : len ++ message = beBytes 2 whole.length ++
      (whole ++ wire snow (first + count + 1) (plaintexts.drop (count + 1))) := by
    have hbytes := h.bytes_eq.symm.trans (hall.trans (wire_split snow first h.count_le))
    rw [hdrop, wire, (writeEncryptedFrame_of_writeMessage hwhole).1, Option.getD_some,
      List.append_assoc] at hbytes
    exact List.append_cancel_left hbytes
  have hlength := congrArg List.length hrest
  simp only [List.length_append, length_beBytes] at hlength
  rcases hpart with ⟨hshort, rfl⟩ | ⟨hlen, hmissing⟩
  · rw [List.length_nil] at hlength
    omega
  · obtain ⟨plaintext, whole', hdrop', hwhole', hvalue, -⟩ :=
      h.header (hall ▸ List.prefix_refl bytes) hsendable hlen hmissing.le
    obtain rfl : plaintexts[count] = plaintext :=
      (List.cons.inj (hdrop.symm.trans hdrop')).1
    obtain rfl : whole = whole' := Option.some.inj (hwhole.symm.trans hwhole')
    omega

end Received

/-! ### From the sender to the receiver -/

variable {accepted written unsent initial obtained bytes undelivered : Bytes}

/-- A sender whose next message is `number` has accepted these bytes, written a part of their
frames and keeps the rest. -/
def Sent (snow : Snow) (first number : ℕ) (accepted written unsent : Bytes) : Prop :=
  ∃ plaintexts, (∀ plaintext ∈ plaintexts, Sendable plaintext) ∧
    number = first + plaintexts.length ∧ accepted = plaintexts.flatten ∧
    written ++ unsent = wire snow first plaintexts

/-- A sender that failed has encrypted a plaintext that it did not accept, and has not written its
whole frame. -/
def SentPart (snow : Snow) (first : ℕ) (accepted written unsent : Bytes) : Prop :=
  ∃ number before plaintext frame, Sent snow first number accepted before [] ∧
    Sendable plaintext ∧ writeEncryptedFrame snow number plaintext = some frame ∧
    written ++ unsent = before ++ frame ∧ unsent ≠ []

theorem sent_start (snow : Snow) (first : ℕ) : Sent snow first first [] [] [] :=
  ⟨[], by simp, rfl, rfl, rfl⟩

/-- Writing moves bytes from what is kept to what is written. -/
theorem Sent.write {written' unsent' : Bytes}
    (h : Sent snow first number accepted written unsent)
    (hwrite : written' ++ unsent' = written ++ unsent) :
    Sent snow first number accepted written' unsent' := by
  obtain ⟨plaintexts, hsendable, hnumber, haccepted, hwire⟩ := h
  exact ⟨plaintexts, hsendable, hnumber, haccepted, hwrite.trans hwire⟩

theorem sendable_concat (hall : ∀ plaintext ∈ plaintexts, Sendable plaintext)
    (hlast : Sendable plaintext) : ∀ other ∈ plaintexts ++ [plaintext], Sendable other := by
  intro other hother
  rcases List.mem_append.mp hother with hmem | hmem
  · exact hall other hmem
  · rw [List.mem_singleton.mp hmem]
    exact hlast

theorem Sent.accept {frame written' unsent' : Bytes}
    (h : Sent snow first number accepted written []) (hsendable : Sendable plaintext)
    (hframe : writeEncryptedFrame snow number plaintext = some frame)
    (hwrite : written' ++ unsent' = written ++ frame) :
    Sent snow first (number + 1) (accepted ++ plaintext) written' unsent' := by
  obtain ⟨plaintexts, hall, rfl, rfl, hwire⟩ := h
  rw [List.append_nil] at hwire
  refine ⟨plaintexts ++ [plaintext], sendable_concat hall hsendable, ?_, ?_, ?_⟩
  · rw [List.length_append, List.length_singleton, Nat.add_assoc]
  · simp
  · rw [hwrite, hwire, wire_concat hframe]

/-- What a receiver obtains from any wire of a sender: the plaintexts of the whole frames it has
read, behind its initial bytes, except those it has yet to deliver. -/
def Obtains (snow : Snow) (first : ℕ) (initial obtained bytes undelivered : Bytes) : Prop :=
  ∀ plaintexts, (∀ plaintext ∈ plaintexts, Sendable plaintext) →
    bytes <+: wire snow first plaintexts →
    ∃ count len message, Received snow first plaintexts bytes count len message ∧
      (len.length < 2 ∧ message = [] ∨ len.length = 2 ∧ message.length < beNat len) ∧
      obtained ++ undelivered = initial ++ (plaintexts.take count).flatten

theorem prefix_of_take (h : obtained ++ undelivered = initial ++ (plaintexts.take count).flatten) :
    obtained <+: initial ++ plaintexts.flatten := by
  have hsplit : plaintexts.flatten =
      (plaintexts.take count).flatten ++ (plaintexts.drop count).flatten := by
    rw [← List.flatten_append, List.take_append_drop]
  rw [hsplit, ← List.append_assoc, ← h, List.append_assoc]
  exact List.prefix_append obtained _

/-- A receiver obtains a prefix of what the sender accepted, and all of it once everything is
written, read and delivered. -/
theorem Sent.delivers (hsent : Sent snow first number accepted written unsent)
    (hobtains : Obtains snow first initial obtained bytes undelivered)
    (hbytes : bytes <+: written) :
    obtained <+: initial ++ accepted ∧
      (unsent = [] → bytes = written → obtained ++ undelivered = initial ++ accepted) := by
  obtain ⟨plaintexts, hsendable, -, rfl, hwire⟩ := hsent
  have hbegins : bytes <+: wire snow first plaintexts :=
    hwire ▸ hbytes.trans (List.prefix_append written unsent)
  obtain ⟨count, len, message, hreceived, hpart, hobtained⟩ :=
    hobtains plaintexts hsendable hbegins
  constructor
  · exact prefix_of_take hobtained
  · rintro rfl rfl
    rw [List.append_nil] at hwire
    rw [hobtained, hreceived.complete hwire hsendable hpart]

/-- A receiver never obtains the plaintext that the sender did not accept. -/
theorem SentPart.delivers (hsent : SentPart snow first accepted written unsent)
    (hobtains : Obtains snow first initial obtained bytes undelivered)
    (hbytes : bytes <+: written) : obtained <+: initial ++ accepted := by
  obtain ⟨number, before, plaintext, frame, hbefore, hsendable, hframe, hwrite, hunsent⟩ := hsent
  obtain ⟨plaintexts, hall, rfl, rfl, hwire⟩ := hbefore
  rw [List.append_nil] at hwire
  rw [hwire, ← wire_concat hframe] at hwrite
  have hbegins : bytes <+: wire snow first (plaintexts ++ [plaintext]) :=
    hwrite ▸ hbytes.trans (List.prefix_append written unsent)
  obtain ⟨count, len, message, hreceived, -, hobtained⟩ :=
    hobtains _ (sendable_concat hall hsendable) hbegins
  have hcount : count ≤ plaintexts.length := by
    by_contra hgt
    have htake : (plaintexts ++ [plaintext]).take count = plaintexts ++ [plaintext] := by
      apply List.take_of_length_le
      rw [List.length_append, List.length_singleton]
      omega
    have hlength := congrArg List.length hreceived.bytes_eq
    have hkept := List.length_pos_iff.mpr hunsent
    have hle := hbytes.length_le
    rw [htake, ← hwrite, List.length_append, List.length_append] at hlength
    omega
  rw [List.take_append_of_le_length hcount] at hobtained
  exact prefix_of_take hobtained

namespace Snow

/-- A cipher that hides nothing; its tag is the number of the message. -/
def transparent : Snow where
  writeMessage number plaintext :=
    if plaintext.length + noiseTagLen ≤ maxFrameLen then
      some (plaintext ++ beBytes noiseTagLen number)
    else none
  readMessage number message :=
    let plaintext := message.take (message.length - noiseTagLen)
    if message = plaintext ++ beBytes noiseTagLen number then some plaintext else none
  isSome_writeMessage number plaintext := by
    split <;> simp_all
  length_writeMessage number plaintext message h := by
    split at h
    · rw [← Option.some.inj h]
      simp
    · cases h
  readMessage_writeMessage number plaintext message h := by
    split at h
    · rw [← Option.some.inj h]
      simp
    · cases h

end Snow

end Ghostbro.Noise
