import Ghostbro.Server.FramedStream

/-!
# Delivery over the Noise stream

In every run of calls on a `NoiseFramedStream` the bytes it has written, followed by those of its
pending frame, are the frames of the bytes it has accepted; and what it has given to its caller,
followed by the plaintext it still holds, are its initial bytes and the plaintexts of the frames it
has read.  Both halves are followed separately: flushing from a read touches only the half that
writes.
-/

namespace Ghostbro.Noise

open Machine

/-! ### The half that writes -/

/-- The bytes of the pending frame that the TCP stream has not taken. -/
def WriteHalf.unsent (writer : WriteHalf) : Bytes :=
  writer.pendingWrite.drop writer.pendingWritePos

/-- A flush only moves bytes; an error leaves some of them, a success none. -/
theorem pollFlushPending_eq_some {writer next : WriteHalf} {answers rest : List TcpAnswer}
    {result : Poll (Except IoError Unit)}
    (h : writer.pollFlushPending answers = some (result, next, rest)) :
    next.written ++ next.unsent = writer.written ++ writer.unsent ∧
      next.sentCount = writer.sentCount ∧
      (∀ error, result = .ready (.error error) → next.unsent ≠ []) ∧
      (result = .ready (.ok ()) → next.unsent = []) := by
  have hkept {writer : WriteHalf} (hpos : writer.pendingWritePos < writer.pendingWrite.length) :
      writer.unsent ≠ [] := by
    rw [WriteHalf.unsent, ne_eq, List.drop_eq_nil_iff]
    omega
  fun_induction WriteHalf.pollFlushPending writer answers with
  | case1 writer hpos rest' =>
    cases h
    exact ⟨rfl, rfl, fun _ h ↦ (nomatch h), (nomatch ·)⟩
  | case2 writer hpos text rest' =>
    cases h
    exact ⟨rfl, rfl, fun _ _ ↦ hkept hpos, (nomatch ·)⟩
  | case3 writer hpos rest' =>
    cases h
    exact ⟨rfl, rfl, fun _ _ ↦ hkept hpos, (nomatch ·)⟩
  | case4 writer hpos rest' count hcount unsent hle ih =>
    obtain ⟨hwrite, hsent, herror, hok⟩ := ih h
    refine ⟨hwrite.trans ?_, hsent, herror, hok⟩
    rw [WriteHalf.unsent, ← List.drop_drop, List.append_assoc, List.take_append_drop]
    rfl
  | case5 => cases h
  | case6 => cases h
  | case7 answers writer hpos =>
    cases h
    have hdone : writer.unsent = [] := List.drop_eq_nil_of_le (not_lt.mp hpos)
    exact ⟨by rw [hdone]; rfl, rfl, fun _ h ↦ (nomatch h), fun _ ↦ rfl⟩

/-- What a call does to the half that writes: which bytes it accepts, and whether it breaks. -/
inductive Writes (snow : Snow) (writer next : WriteHalf) : Bytes → Bool → Prop
  /-- Bytes of the pending frame are written. -/
  | flushed (broken : Bool)
      (hwrite : next.written ++ next.unsent = writer.written ++ writer.unsent)
      (hcount : next.sentCount = writer.sentCount) : Writes snow writer next [] broken
  /-- The pending frame is written, and a new one becomes pending. -/
  | framed {plaintext frame : Bytes} (hsendable : Sendable plaintext)
      (hframe : writeEncryptedFrame snow writer.sentCount plaintext = some frame)
      (hwrite : next.written ++ next.unsent = writer.written ++ writer.unsent ++ frame)
      (hcount : next.sentCount = writer.sentCount + 1) : Writes snow writer next plaintext false
  /-- The new frame is not written as a whole because of an error. -/
  | failed {plaintext frame : Bytes} (hsendable : Sendable plaintext)
      (hframe : writeEncryptedFrame snow writer.sentCount plaintext = some frame)
      (hwrite : next.written ++ next.unsent = writer.written ++ writer.unsent ++ frame)
      (hunsent : next.unsent ≠ []) : Writes snow writer next [] true

/-- The bytes of `data` that the result of a write accepts. -/
def acceptedOf (data : Bytes) : Poll (Except IoError ℕ) → Bytes
  | .ready (.ok count) => data.take count
  | _ => []

/-- The result of a write is an error. -/
def failedWrite : Poll (Except IoError ℕ) → Bool
  | .ready (.error _) => true
  | _ => false

section Writes

variable {snow : Snow} {writer next : WriteHalf} {answers rest : List TcpAnswer} {buf data : Bytes}
  {result : Poll (Except IoError ℕ)}

theorem writes_of_pollFlushPending {outcome : Poll (Except IoError Unit)}
    (h : writer.pollFlushPending answers = some (outcome, next, rest)) (broken : Bool) :
    Writes snow writer next [] broken :=
  .flushed broken (pollFlushPending_eq_some h).1 (pollFlushPending_eq_some h).2.1

theorem writes_of_pollFrame {middle : WriteHalf} {plaintext encrypted : Bytes}
    (hsendable : Sendable plaintext) (hdata : plaintext <+: data)
    (hflushed : middle.written = writer.written ++ writer.unsent)
    (hcount : middle.sentCount = writer.sentCount)
    (hencrypted : snow.writeMessage writer.sentCount plaintext = some encrypted)
    (h : middle.pollFrame encrypted plaintext.length answers = some (result, next, rest)) :
    Writes snow writer next (acceptedOf data result) (failedWrite result) := by
  have hframe := (writeEncryptedFrame_of_writeMessage hencrypted).1
  have haccepted : data.take plaintext.length = plaintext :=
    (List.prefix_iff_eq_take.mp hdata).symm
  have hflushes {outcome : Poll (Except IoError Unit)} {after : WriteHalf}
      (hflush : WriteHalf.pollFlushPending { middle with
        pendingWrite := beBytes 2 encrypted.length ++ encrypted
        pendingWritePos := 0
        sentCount := middle.sentCount + 1 } answers = some (outcome, after, rest)) :
      after.written ++ after.unsent = writer.written ++ writer.unsent ++
          (beBytes 2 encrypted.length ++ encrypted) ∧
        after.sentCount = writer.sentCount + 1 := by
    obtain ⟨hwrite, hsent, -, -⟩ := pollFlushPending_eq_some hflush
    rw [hwrite, hsent, hflushed, hcount]
    exact ⟨rfl, rfl⟩
  unfold WriteHalf.pollFrame at h
  dsimp only at h
  split at h
  · cases h
  · rename_i hflush
    cases h
    obtain ⟨hbytes, hnumber⟩ := hflushes hflush
    rw [acceptedOf, haccepted]
    exact .framed hsendable hframe hbytes hnumber
  · rename_i error _ _ hflush
    cases h
    have hunsent := (pollFlushPending_eq_some hflush).2.2.1 error rfl
    exact .failed hsendable hframe (hflushes hflush).1 hunsent
  · rename_i hflush
    cases h
    obtain ⟨hbytes, hnumber⟩ := hflushes hflush
    rw [acceptedOf, haccepted]
    exact .framed hsendable hframe hbytes hnumber

theorem sendable_take (hbuf : buf ≠ []) :
    Sendable (buf.take (min buf.length maxPlaintextLen)) := by
  have hpositive := List.length_pos_iff.mpr hbuf
  constructor
  · rw [← List.length_pos_iff, List.length_take]
    simp only [maxPlaintextLen, maxFrameLen, noiseTagLen]
    omega
  · rw [List.length_take]
    omega

theorem writes_of_pollWrite (hdata : buf <+: data)
    (h : writer.pollWrite snow buf answers = some (result, next, rest)) :
    Writes snow writer next (acceptedOf data result) (failedWrite result) := by
  unfold WriteHalf.pollWrite at h
  split at h
  · cases h
  · rename_i hflush
    cases h
    exact writes_of_pollFlushPending hflush false
  · rename_i hflush
    cases h
    exact writes_of_pollFlushPending hflush true
  · rename_i middle rest' hflush
    obtain ⟨hwrite, hcount, -, hdone⟩ := pollFlushPending_eq_some hflush
    rw [hdone rfl, List.append_nil] at hwrite
    split at h
    · cases h
      exact writes_of_pollFlushPending hflush false
    · rename_i hbuf
      have hsendable := sendable_take hbuf
      have hpart : buf.take (min buf.length maxPlaintextLen) <+: data :=
        (List.take_prefix _ buf).trans hdata
      dsimp only at h
      split at h
      · rename_i hnone
        obtain ⟨encrypted, hencrypted⟩ := hsendable.exists_message snow middle.sentCount
        cases hnone.symm.trans hencrypted
      · rename_i encrypted hencrypted
        rw [hcount] at hencrypted
        split at h
        · exact writes_of_pollFrame hsendable hpart hwrite hcount hencrypted h
        · rename_i hlong
          have hle := (writeEncryptedFrame_of_writeMessage hencrypted).2.2
          exact absurd (lt_of_le_of_lt hle (by decide)) hlong

/-- The first buffer with bytes in it begins what the buffers hold together. -/
theorem prefix_flatten_of_find {bufs : List Bytes}
    (h : bufs.find? (fun buf ↦ !buf.isEmpty) = some buf) : buf <+: bufs.flatten := by
  induction bufs with
  | nil => cases h
  | cons first bufs ih =>
    cases first with
    | nil => exact ih h
    | cons byte bytes =>
      obtain rfl : byte :: bytes = buf := by simpa using h
      exact List.prefix_append _ _

theorem writes_of_pollWriteVectored {bufs : List Bytes}
    (h : writer.pollWriteVectored snow bufs answers = some (result, next, rest)) :
    Writes snow writer next (acceptedOf bufs.flatten result) (failedWrite result) := by
  unfold WriteHalf.pollWriteVectored at h
  split at h
  · cases h
    exact .flushed false rfl rfl
  · rename_i hfind
    exact writes_of_pollWrite (prefix_flatten_of_find hfind) h

theorem writes_of_pollFlush {outcome : Poll (Except IoError Unit)}
    (h : writer.pollFlush answers = some (outcome, next, rest)) :
    Writes snow writer next [] false := by
  unfold WriteHalf.pollFlush at h
  split at h
  · cases h
  · rename_i hflush
    cases h
    exact writes_of_pollFlushPending hflush false
  · rename_i hflush
    cases h
    exact writes_of_pollFlushPending hflush false
  · rename_i hflush
    split at h <;> cases h <;> exact writes_of_pollFlushPending hflush false

/-- A read flushes first. -/
theorem writes_of_pollRead {session : Session} {stream after : NoiseFramedStream} {remaining : ℕ}
    {outcome : Poll (Except IoError Bytes)}
    (h : stream.pollRead session remaining answers = some (outcome, after, rest)) :
    Writes snow stream.writer after.writer [] false := by
  unfold NoiseFramedStream.pollRead at h
  split at h
  · cases h
  · rename_i hflush
    cases h
    exact writes_of_pollFlushPending hflush false
  · rename_i hflush
    cases h
    exact writes_of_pollFlushPending hflush false
  · rename_i hflush
    obtain ⟨⟨_, reader, _⟩, -, heq⟩ := Option.map_eq_some_iff.mp h
    cases heq
    exact writes_of_pollFlushPending hflush false

/-- One call on a stream, on the half that writes. -/
theorem writes_of_poll {session : Session} {stream after : NoiseFramedStream} {call : Call}
    {outcome : Poll (Except IoError Returned)}
    (h : stream.poll session answers call = some (outcome, after, rest)) :
    Writes session.outbound stream.writer after.writer (Report.accepted ⟨call, outcome⟩)
      (Report.brokenWrite ⟨call, outcome⟩) := by
  cases call with
  | read remaining =>
    obtain ⟨⟨result, next, rest'⟩, hpoll, heq⟩ := Option.map_eq_some_iff.mp h
    cases heq
    exact writes_of_pollRead hpoll
  | write buf =>
    obtain ⟨⟨result, next, rest'⟩, hpoll, heq⟩ := Option.map_eq_some_iff.mp h
    cases heq
    have hwrites := writes_of_pollWrite (List.prefix_refl buf) hpoll
    rcases result with _ | _ | _ <;> exact hwrites
  | writeVectored bufs =>
    obtain ⟨⟨result, next, rest'⟩, hpoll, heq⟩ := Option.map_eq_some_iff.mp h
    cases heq
    have hwrites := writes_of_pollWriteVectored hpoll
    rcases result with _ | _ | _ <;> exact hwrites
  | flush =>
    obtain ⟨⟨result, next, rest'⟩, hpoll, heq⟩ := Option.map_eq_some_iff.mp h
    cases heq
    exact writes_of_pollFlush hpoll
  | shutdown =>
    obtain ⟨⟨result, next, rest'⟩, hpoll, heq⟩ := Option.map_eq_some_iff.mp h
    cases heq
    exact writes_of_pollFlush hpoll

/-- Everything a connection has written and keeps to write are the frames of what it accepted. -/
theorem sent_of_run {session : Session} {initial : Bytes} {first received : ℕ}
    {calls : List (Call × List TcpAnswer)} {reports : List Report} {connection : Connection}
    (hrun : Run (step session) unrestricted ⟨.new initial first received, false⟩ calls reports
      connection) :
    let writer := connection.stream.writer
    let accepted := reports.flatMap Report.accepted
    Sent session.outbound first writer.sentCount accepted writer.written writer.unsent ∨
      connection.broken = true ∧
        SentPart session.outbound first accepted writer.written writer.unsent := by
  refine hrun.invariant (fun reports connection ↦
    Sent session.outbound first connection.stream.writer.sentCount
      (reports.flatMap Report.accepted) connection.stream.writer.written
      connection.stream.writer.unsent ∨ connection.broken = true ∧
        SentPart session.outbound first (reports.flatMap Report.accepted)
          connection.stream.writer.written connection.stream.writer.unsent)
    (.inl (sent_start session.outbound first)) ?_
  intro reports connection ⟨call, answers⟩ next emitted hsent _ hstep
  obtain ⟨hwhole, result, stream, hpoll, rfl, rfl⟩ := step_eq_some hstep
  replace hsent := hsent.resolve_right fun h ↦ by simp [hwhole] at h
  have hwrites := writes_of_poll hpoll
  have hflushed : Sent session.outbound first connection.stream.writer.sentCount
      (reports.flatMap Report.accepted)
      (connection.stream.writer.written ++ connection.stream.writer.unsent) [] :=
    hsent.write (List.append_nil _)
  simp only [Option.toList_some, List.flatMap_append, List.flatMap_cons, List.flatMap_nil,
    List.append_nil]
  generalize Report.accepted ⟨call, result⟩ = accepted at hwrites ⊢
  generalize Report.brokenWrite ⟨call, result⟩ = broken at hwrites ⊢
  cases hwrites with
  | flushed _ hwrite hcount =>
    rw [List.append_nil, hcount]
    exact .inl (hsent.write hwrite)
  | framed hsendable hframe hwrite hcount =>
    rw [hcount]
    exact .inl (hflushed.accept hsendable hframe hwrite)
  | failed hsendable hframe hwrite hunsent =>
    rw [List.append_nil]
    exact .inr ⟨rfl, _, _, _, _, hflushed, hsendable, hframe, hwrite, hunsent⟩

end Writes

/-! ### The half that reads -/

/-- The bytes of the plaintext that the caller has not got. -/
def ReadHalf.undelivered (reader : ReadHalf) : Bytes := reader.plaintext.drop reader.plaintextPos

/-- The cursors of the half that reads, after `count` whole frames of the sender. -/
structure Receiving (snow : Snow) (first : ℕ) (plaintexts : List Bytes) (initial obtained : Bytes)
    (reader : ReadHalf) (count : ℕ) : Prop where
  number : reader.receivedCount = first + count
  received : Received snow first plaintexts reader.read count reader.readLen reader.encryptedRead
  part : reader.readLen.length < 2 ∧ reader.encryptedRead = [] ∧ reader.encryptedReadLen = 0 ∨
    reader.readLen.length = 2 ∧ reader.encryptedReadLen = beNat reader.readLen ∧
      reader.encryptedRead.length < beNat reader.readLen
  position : reader.plaintextPos = 0 ∨ reader.plaintextPos < reader.plaintext.length
  delivered : obtained ++ reader.undelivered = initial ++ (plaintexts.take count).flatten

section Reads

variable {snow : Snow} {first count : ℕ} {plaintexts : List Bytes} {initial obtained : Bytes}
  {reader next : ReadHalf} {answers rest : List TcpAnswer}

/-- A reader that has taken a whole frame: it can read the message, and is ready for the next
frame. -/
structure TakenFrame (snow : Snow) (first : ℕ) (plaintexts : List Bytes) (count : ℕ)
    (reader : ReadHalf) (frame plaintext : Bytes) : Prop where
  message : snow.readMessage (first + count) frame = some plaintext
  nonempty : plaintext ≠ []
  flatten : (plaintexts.take (count + 1)).flatten = (plaintexts.take count).flatten ++ plaintext
  received : Received snow first plaintexts reader.read (count + 1) reader.readLen
    reader.encryptedRead
  fresh : reader.readLen = [] ∧ reader.encryptedRead = [] ∧ reader.encryptedReadLen = 0
  number : reader.receivedCount = first + count

/-- What `poll_read_outer_frame` does to a receiver: it stops in a frame or at the end of one, or
it takes a frame. -/
inductive ReadsFrame (snow : Snow) (first : ℕ) (plaintexts : List Bytes) (initial obtained : Bytes)
    (count : ℕ) (next : ReadHalf) : Poll (Except IoError (Option Bytes)) → Prop
  | stopped {result : Poll (Except IoError (Option Bytes))}
      (hresult : ∀ frame, result ≠ .ready (.ok (some frame)))
      (h : Receiving snow first plaintexts initial obtained next count) :
      ReadsFrame snow first plaintexts initial obtained count next result
  | taken {frame plaintext : Bytes}
      (h : TakenFrame snow first plaintexts count next frame plaintext) :
      ReadsFrame snow first plaintexts initial obtained count next (.ready (.ok (some frame)))

/-- Reading a frame adds to the bytes read and leaves the plaintext alone. -/
structure Extends (reader next : ReadHalf) : Prop where
  read : reader.read <+: next.read
  plaintext : next.plaintext = reader.plaintext
  plaintextPos : next.plaintextPos = reader.plaintextPos

theorem extends_of_pollReadFrame {result : Poll (Except IoError (Option Bytes))}
    (h : reader.pollReadFrame answers = some (result, next, rest)) : Extends reader next := by
  unfold ReadHalf.pollReadFrame at h
  split at h
  · cases h
  · rename_i filled gained rest' hfill
    cases filled <;> cases h <;> exact ⟨List.prefix_append reader.read gained, rfl, rfl⟩

theorem extends_of_pollReadOuterFrame {result : Poll (Except IoError (Option Bytes))}
    (h : reader.pollReadOuterFrame answers = some (result, next, rest)) :
    Extends reader next := by
  unfold ReadHalf.pollReadOuterFrame at h
  split at h
  · cases h
  · rename_i filled gained rest' hfill
    have hgained := List.prefix_append reader.read gained
    cases filled with
    | pending =>
      cases h
      exact ⟨hgained, rfl, rfl⟩
    | failed text =>
      cases h
      exact ⟨hgained, rfl, rfl⟩
    | closed =>
      dsimp only at h
      split at h <;> cases h <;> exact ⟨hgained, rfl, rfl⟩
    | full =>
      dsimp only at h
      split at h
      · split at h
        · cases h
          exact ⟨hgained, rfl, rfl⟩
        · have hframe := extends_of_pollReadFrame h
          exact ⟨hgained.trans hframe.read, hframe.plaintext, hframe.plaintextPos⟩
      · have hframe := extends_of_pollReadFrame h
        exact ⟨hgained.trans hframe.read, hframe.plaintext, hframe.plaintextPos⟩

/-- The loop over the bytes of the message. -/
theorem readsFrame_of_pollReadFrame {result : Poll (Except IoError (Option Bytes))}
    (hreceiving : Receiving snow first plaintexts initial obtained reader count)
    (hlen : reader.readLen.length = 2)
    (hsendable : ∀ plaintext ∈ plaintexts, Sendable plaintext)
    (hwire : next.read <+: wire snow first plaintexts)
    (h : reader.pollReadFrame answers = some (result, next, rest)) :
    ReadsFrame snow first plaintexts initial obtained count next result := by
  obtain ⟨-, htarget, hmissing⟩ := hreceiving.part.resolve_left fun h ↦ by omega
  unfold ReadHalf.pollReadFrame at h
  cases hfill : fill (reader.encryptedReadLen - reader.encryptedRead.length) answers with
  | none =>
    rw [hfill] at h
    cases h
  | some result' =>
    obtain ⟨filled, gained, rest'⟩ := result'
    rw [hfill] at h
    obtain ⟨-, hgained, hfull, -, hshort⟩ := fill_eq_some hfill
    have hreceived : Received snow first plaintexts (reader.read ++ gained) count reader.readLen
        (reader.encryptedRead ++ gained) := by
      refine ⟨hreceiving.received.count_le, ?_⟩
      rw [hreceiving.received.bytes_eq]
      simp only [List.append_assoc]
    have hstopped (hfilled : filled ≠ .full) :
        Receiving snow first plaintexts initial obtained { reader with
          encryptedRead := reader.encryptedRead ++ gained
          read := reader.read ++ gained } count := by
      have hlt : (reader.encryptedRead ++ gained).length < beNat reader.readLen := by
        have := hshort hfilled
        rw [List.length_append]
        omega
      exact ⟨hreceiving.number, hreceived, .inr ⟨hlen, htarget, hlt⟩, hreceiving.position,
        hreceiving.delivered⟩
    cases filled with
    | pending =>
      cases h
      exact .stopped (fun _ h ↦ (nomatch h)) (hstopped (by simp))
    | failed text =>
      cases h
      exact .stopped (fun _ h ↦ (nomatch h)) (hstopped (by simp))
    | closed =>
      cases h
      exact .stopped (fun _ h ↦ (nomatch h)) (hstopped (by simp))
    | full =>
      cases h
      have hwhole : (reader.encryptedRead ++ gained).length = beNat reader.readLen := by
        have := hfull rfl
        rw [List.length_append]
        omega
      obtain ⟨plaintext, hmessage, hnonempty, hflatten, hnext⟩ :=
        hreceived.whole hwire hsendable hlen hwhole
      exact .taken ⟨hmessage, hnonempty, hflatten, hnext, ⟨rfl, rfl, rfl⟩, hreceiving.number⟩

/-- The length bytes of the next frame, or a part of them. -/
theorem Receiving.lenGained
    (h : Receiving snow first plaintexts initial obtained reader count)
    (hnone : reader.encryptedReadLen = 0) (gained : Bytes) :
    reader.encryptedRead = [] ∧ Received snow first plaintexts (reader.read ++ gained) count
      (reader.readLen ++ gained) [] := by
  have hempty : reader.encryptedRead = [] := (h.part.resolve_right fun h ↦ by omega).2.1
  refine ⟨hempty, h.received.count_le, ?_⟩
  rw [h.received.bytes_eq, hempty]
  simp only [List.append_assoc, List.append_nil]

/-- The loop over the length bytes ends before it has both. -/
theorem Receiving.lenStopped {gained : Bytes}
    (h : Receiving snow first plaintexts initial obtained reader count)
    (hlen : (reader.readLen ++ gained).length < 2) :
    Receiving snow first plaintexts initial obtained
      { reader with readLen := reader.readLen ++ gained, read := reader.read ++ gained }
      count := by
  have hpart := h.part.resolve_right fun h ↦ by
    rw [List.length_append] at hlen
    omega
  obtain ⟨hempty, hreceived⟩ := h.lenGained hpart.2.2 gained
  refine ⟨h.number, ?_, .inl ⟨hlen, hpart.2⟩, h.position, h.delivered⟩
  rw [← hempty] at hreceived
  exact hreceived

/-- The loop over the length bytes completes them: they announce a frame that is not too long. -/
theorem Receiving.lenComplete {gained : Bytes}
    (h : Receiving snow first plaintexts initial obtained reader count)
    (hnone : reader.encryptedReadLen = 0) (hlen : (reader.readLen ++ gained).length = 2)
    (hsendable : ∀ plaintext ∈ plaintexts, Sendable plaintext)
    (hwire : reader.read ++ gained <+: wire snow first plaintexts) :
    beNat (reader.readLen ++ gained) ≤ maxFrameLen ∧
      Receiving snow first plaintexts initial obtained { reader with
        readLen := reader.readLen ++ gained
        encryptedReadLen := beNat (reader.readLen ++ gained)
        encryptedRead := []
        read := reader.read ++ gained } count := by
  have hreceived := (h.lenGained hnone gained).2
  obtain ⟨_, whole, -, -, hvalue, hpositive, hle, -⟩ :=
    hreceived.header hwire hsendable hlen (Nat.zero_le _)
  rw [← hvalue] at hpositive hle
  exact ⟨hle, h.number, hreceived, .inr ⟨hlen, rfl, hpositive⟩, h.position, h.delivered⟩

/-- `poll_read_outer_frame` on the wire of a sender. -/
theorem readsFrame_of_pollReadOuterFrame {result : Poll (Except IoError (Option Bytes))}
    (hreceiving : Receiving snow first plaintexts initial obtained reader count)
    (hsendable : ∀ plaintext ∈ plaintexts, Sendable plaintext)
    (hwire : next.read <+: wire snow first plaintexts)
    (h : reader.pollReadOuterFrame answers = some (result, next, rest)) :
    ReadsFrame snow first plaintexts initial obtained count next result := by
  unfold ReadHalf.pollReadOuterFrame at h
  split at h
  · cases h
  · rename_i filled gained rest' hfill
    obtain ⟨-, -, hfull, -, hshort⟩ := fill_eq_some hfill
    have hlt (hfilled : filled ≠ .full) : (reader.readLen ++ gained).length < 2 := by
      have := hshort hfilled
      rw [List.length_append]
      omega
    cases filled with
    | pending =>
      cases h
      exact .stopped (fun _ h ↦ (nomatch h)) (hreceiving.lenStopped (hlt (by simp)))
    | failed text =>
      cases h
      exact .stopped (fun _ h ↦ (nomatch h)) (hreceiving.lenStopped (hlt (by simp)))
    | closed =>
      dsimp only at h
      split at h
      · cases h
        exact .stopped (fun _ h ↦ (nomatch h)) (hreceiving.lenStopped (hlt (by simp)))
      · cases h
        exact .stopped (fun _ h ↦ (nomatch h)) (hreceiving.lenStopped (hlt (by simp)))
    | full =>
      have hlen : (reader.readLen ++ gained).length = 2 := by
        have := hfull rfl
        have := hreceiving.part
        rw [List.length_append]
        omega
      dsimp only at h
      split at h
      · rename_i hnone
        split at h
        · rename_i hlong
          cases h
          have hle := (hreceiving.lenComplete hnone hlen hsendable hwire).1
          exact absurd hle (not_le.mpr hlong)
        · have hbegins := (extends_of_pollReadFrame h).read.trans hwire
          have hbegun := (hreceiving.lenComplete hnone hlen hsendable hbegins).2
          exact readsFrame_of_pollReadFrame hbegun hlen hsendable hwire h
      · -- the length bytes were complete before this call
        rename_i hsome
        have hwhole := (hreceiving.part.resolve_left fun h ↦ hsome h.2.2).1
        obtain rfl : gained = [] := by
          rw [List.length_append] at hlen
          exact List.eq_nil_of_length_eq_zero (by omega)
        simp only [List.append_nil] at h
        exact readsFrame_of_pollReadFrame hreceiving hwhole hsendable hwire h

theorem read_prefix_of_pollPlaintext {remaining : ℕ} {result : Poll (Except IoError Bytes)}
    (h : reader.pollPlaintext snow remaining answers = some (result, next, rest)) :
    reader.read <+: next.read := by
  fun_induction ReadHalf.pollPlaintext snow remaining reader answers with
  | case1 reader answers hpos available len after =>
    obtain ⟨-, hnext, -⟩ : _ ∧ after = next ∧ answers = rest := by simpa using h
    rw [← hnext]
    simp only [after]
    split <;> exact List.prefix_refl _
  | case2 => cases h
  | case3 reader answers hpos middle rest' hframe =>
    cases h
    exact (extends_of_pollReadOuterFrame hframe).read
  | case4 reader answers hpos error middle rest' hframe =>
    cases h
    exact (extends_of_pollReadOuterFrame hframe).read
  | case5 reader answers hpos middle rest' hframe =>
    cases h
    exact (extends_of_pollReadOuterFrame hframe).read
  | case6 reader answers hpos encrypted middle rest' hframe hmessage =>
    cases h
    exact (extends_of_pollReadOuterFrame hframe).read
  | case7 reader answers hpos encrypted middle rest' hframe plaintext hmessage ih =>
    exact (extends_of_pollReadOuterFrame hframe).read.trans (ih h)

/-- The bytes that the result of a read gives to its caller. -/
def obtainedOf : Poll (Except IoError Bytes) → Bytes
  | .ready (.ok bytes) => bytes
  | _ => []

/-- A delivery moves bytes from the plaintext to the caller. -/
theorem Receiving.deliver (h : Receiving snow first plaintexts initial obtained reader count)
    (remaining : ℕ) (hpos : reader.plaintextPos < reader.plaintext.length) :
    let available := reader.plaintext.drop reader.plaintextPos
    let len := min available.length remaining
    Receiving snow first plaintexts initial (obtained ++ available.take len)
      (if reader.plaintextPos + len = reader.plaintext.length then
        { reader with plaintext := [], plaintextPos := 0 }
      else { reader with plaintextPos := reader.plaintextPos + len }) count := by
  intro available len
  have hle : len ≤ available.length := min_le_left _ _
  have hlength : available.length = reader.plaintext.length - reader.plaintextPos :=
    List.length_drop
  have hdelivered : obtained ++ available.take len ++ reader.plaintext.drop
      (reader.plaintextPos + len) = initial ++ (plaintexts.take count).flatten := by
    rw [← h.delivered, ← List.drop_drop, List.append_assoc, List.take_append_drop]
    rfl
  split
  · rename_i hend
    rw [hend, List.drop_length] at hdelivered
    exact ⟨h.number, h.received, h.part, .inl rfl, hdelivered⟩
  · refine ⟨h.number, h.received, h.part, .inr ?_, hdelivered⟩
    dsimp only
    omega

/-- A frame that is taken when the plaintext is used up becomes the plaintext. -/
theorem Receiving.advance {frame plaintext : Bytes}
    (h : Receiving snow first plaintexts initial obtained reader count)
    (hextends : Extends reader next)
    (htaken : TakenFrame snow first plaintexts count next frame plaintext)
    (hpos : ¬reader.plaintextPos < reader.plaintext.length) :
    Receiving snow first plaintexts initial obtained
      { next with plaintext := plaintext, receivedCount := next.receivedCount + 1 }
      (count + 1) := by
  have hzero : next.plaintextPos = 0 := hextends.plaintextPos.trans (h.position.resolve_right hpos)
  have hdelivered := h.delivered
  rw [ReadHalf.undelivered, List.drop_eq_nil_of_le (not_lt.mp hpos), List.append_nil] at hdelivered
  obtain ⟨hlen, hmessage, hnone⟩ := htaken.fresh
  refine ⟨?_, htaken.received, .inl ⟨?_, hmessage, hnone⟩, .inl hzero, ?_⟩
  · rw [htaken.number, Nat.add_assoc]
  · rw [hlen]
    exact Nat.zero_lt_two
  · rw [htaken.flatten, ← List.append_assoc, ← hdelivered, ReadHalf.undelivered]
    dsimp only
    rw [hzero, List.drop_zero]

/-- The loop of `poll_read` on the wire of a sender. -/
theorem receiving_of_pollPlaintext {remaining : ℕ} {result : Poll (Except IoError Bytes)}
    (hreceiving : Receiving snow first plaintexts initial obtained reader count)
    (hsendable : ∀ plaintext ∈ plaintexts, Sendable plaintext)
    (hwire : next.read <+: wire snow first plaintexts)
    (h : reader.pollPlaintext snow remaining answers = some (result, next, rest)) :
    ∃ count', Receiving snow first plaintexts initial (obtained ++ obtainedOf result) next
      count' := by
  have hstopped {reader middle : ReadHalf} {answers rest' : List TcpAnswer} {count : ℕ}
      {outcome : Poll (Except IoError (Option Bytes))}
      (hreceiving : Receiving snow first plaintexts initial obtained reader count)
      (hframe : reader.pollReadOuterFrame answers = some (outcome, middle, rest'))
      (houtcome : ∀ frame, outcome ≠ .ready (.ok (some frame)))
      (hwire : middle.read <+: wire snow first plaintexts) :
      Receiving snow first plaintexts initial (obtained ++ []) middle count := by
    rw [List.append_nil]
    cases readsFrame_of_pollReadOuterFrame hreceiving hsendable hwire hframe with
    | stopped _ h => exact h
    | taken h => exact absurd rfl (houtcome _)
  fun_induction ReadHalf.pollPlaintext snow remaining reader answers generalizing count with
  | case1 reader answers hpos available len =>
    obtain ⟨hresult, hnext, -⟩ : Poll.ready (Except.ok (available.take len)) = result ∧
        _ = next ∧ answers = rest := by simpa using h
    rw [← hresult, ← hnext]
    exact ⟨count, hreceiving.deliver remaining hpos⟩
  | case2 => cases h
  | case3 reader answers hpos middle rest' hframe =>
    cases h
    exact ⟨count, hstopped hreceiving hframe (fun _ h ↦ (nomatch h)) hwire⟩
  | case4 reader answers hpos error middle rest' hframe =>
    cases h
    exact ⟨count, hstopped hreceiving hframe (fun _ h ↦ (nomatch h)) hwire⟩
  | case5 reader answers hpos middle rest' hframe =>
    cases h
    exact ⟨count, hstopped hreceiving hframe (fun _ h ↦ (nomatch h)) hwire⟩
  | case6 reader answers hpos encrypted middle rest' hframe hmessage =>
    cases h
    cases readsFrame_of_pollReadOuterFrame hreceiving hsendable hwire hframe with
    | stopped hresult _ => exact absurd rfl (hresult encrypted)
    | taken htaken =>
      rw [htaken.number, htaken.message] at hmessage
      cases hmessage
  | case7 reader answers hpos encrypted middle rest' hframe plaintext hmessage ih =>
    have hmiddle : middle.read <+: wire snow first plaintexts :=
      (read_prefix_of_pollPlaintext h).trans hwire
    cases readsFrame_of_pollReadOuterFrame hreceiving hsendable hmiddle hframe with
    | stopped hresult _ => exact absurd rfl (hresult encrypted)
    | taken htaken =>
      rw [htaken.number, htaken.message] at hmessage
      obtain rfl := Option.some.inj hmessage
      exact ih (hreceiving.advance (extends_of_pollReadOuterFrame hframe) htaken hpos) h

/-- One call on a stream, on the half that reads: only a read that got past its flush works on
it. -/
theorem reads_of_poll {session : Session} {stream after : NoiseFramedStream} {call : Call}
    {outcome : Poll (Except IoError Returned)}
    (h : stream.poll session answers call = some (outcome, after, rest)) :
    after.reader = stream.reader ∧ Report.obtained ⟨call, outcome⟩ = [] ∨
      ∃ remaining answers' result,
        stream.reader.pollPlaintext session.inbound remaining answers' =
          some (result, after.reader, rest) ∧
        Report.obtained ⟨call, outcome⟩ = obtainedOf result := by
  cases call with
  | read remaining =>
    obtain ⟨⟨result, next, rest'⟩, hpoll, heq⟩ := Option.map_eq_some_iff.mp h
    cases heq
    have hobtained :
        Report.obtained ⟨.read remaining, result.mapOk .bytes⟩ = obtainedOf result := by
      rcases result with _ | _ | _ <;> rfl
    unfold NoiseFramedStream.pollRead at hpoll
    split at hpoll
    · cases hpoll
    · cases hpoll
      exact .inl ⟨rfl, rfl⟩
    · cases hpoll
      exact .inl ⟨rfl, rfl⟩
    · obtain ⟨⟨result', reader, rest'⟩, hread, heq⟩ := Option.map_eq_some_iff.mp hpoll
      cases heq
      exact .inr ⟨remaining, _, result, hread, hobtained⟩
  | write buf =>
    obtain ⟨⟨result, writer, rest'⟩, -, heq⟩ := Option.map_eq_some_iff.mp h
    cases heq
    rcases result with _ | _ | _ <;> exact .inl ⟨rfl, rfl⟩
  | writeVectored bufs =>
    obtain ⟨⟨result, writer, rest'⟩, -, heq⟩ := Option.map_eq_some_iff.mp h
    cases heq
    rcases result with _ | _ | _ <;> exact .inl ⟨rfl, rfl⟩
  | flush =>
    obtain ⟨⟨result, writer, rest'⟩, -, heq⟩ := Option.map_eq_some_iff.mp h
    cases heq
    rcases result with _ | _ | _ <;> exact .inl ⟨rfl, rfl⟩
  | shutdown =>
    obtain ⟨⟨result, writer, rest'⟩, -, heq⟩ := Option.map_eq_some_iff.mp h
    cases heq
    rcases result with _ | _ | _ <;> exact .inl ⟨rfl, rfl⟩

theorem receiving_start (snow : Snow) (first : ℕ) (plaintexts : List Bytes) (initial : Bytes) :
    Receiving snow first plaintexts initial [] (.new initial first) 0 where
  number := rfl
  received := ⟨Nat.zero_le _, rfl⟩
  part := .inl ⟨Nat.zero_lt_two, rfl, rfl⟩
  position := .inl rfl
  delivered := by simp [ReadHalf.undelivered, ReadHalf.new]

/-- What a connection has given to its caller, and what it still holds of the plaintext, comes from
the frames it has read. -/
theorem obtains_of_run {session : Session} {initial : Bytes} {sent first : ℕ}
    {calls : List (Call × List TcpAnswer)} {reports : List Report} {connection : Connection}
    (hrun : Run (step session) unrestricted ⟨.new initial sent first, false⟩ calls reports
      connection) :
    let reader := connection.stream.reader
    Obtains session.inbound first initial (reports.flatMap Report.obtained) reader.read
      reader.undelivered := by
  intro reader plaintexts hsendable hwire
  have hall : reader.read <+: wire session.inbound first plaintexts →
      ∃ count, Receiving session.inbound first plaintexts initial
        (reports.flatMap Report.obtained) reader count := by
    refine hrun.invariant (fun reports connection ↦
      connection.stream.reader.read <+: wire session.inbound first plaintexts →
        ∃ count, Receiving session.inbound first plaintexts initial
          (reports.flatMap Report.obtained) connection.stream.reader count)
      ?_ ?_
    · intro _
      exact ⟨0, receiving_start session.inbound first plaintexts initial⟩
    intro reports connection ⟨call, answers⟩ next emitted hbefore _ hstep hwire
    obtain ⟨-, result, stream, hpoll, rfl, rfl⟩ := step_eq_some hstep
    simp only [Option.toList_some, List.flatMap_append, List.flatMap_cons, List.flatMap_nil,
      List.append_nil]
    rcases reads_of_poll hpoll with ⟨hreader, hobtained⟩ |
      ⟨remaining, answers', result', hread, hobtained⟩
    · rw [hobtained, List.append_nil, hreader]
      exact hbefore (hreader ▸ hwire)
    · obtain ⟨count, hreceiving⟩ := hbefore ((read_prefix_of_pollPlaintext hread).trans hwire)
      rw [hobtained]
      exact receiving_of_pollPlaintext hreceiving hsendable hwire hread
  obtain ⟨count, hreceiving⟩ := hall hwire
  refine ⟨count, _, _, hreceiving.received, ?_, hreceiving.delivered⟩
  exact hreceiving.part.imp (fun h ↦ ⟨h.1, h.2.1⟩) (fun h ↦ ⟨h.1, h.2.2⟩)

/-- What a flushed stream holds back is given to the next reads, without a poll of the TCP
stream. -/
theorem pollRead_undelivered {session : Session} {stream : NoiseFramedStream} (remaining : ℕ)
    (hflushed : stream.writer.unsent = []) (hheld : stream.reader.undelivered ≠ []) :
    ∃ after, stream.pollRead session remaining [] =
      some (.ready (.ok (stream.reader.undelivered.take remaining)), after, []) := by
  have htake (bytes : Bytes) : bytes.take (min bytes.length remaining) = bytes.take remaining := by
    rw [min_comm, ← List.take_take, List.take_length]
  have hwriter : ¬stream.writer.pendingWritePos < stream.writer.pendingWrite.length :=
    not_lt.mpr (List.drop_eq_nil_iff.mp hflushed)
  have hreader : stream.reader.plaintextPos < stream.reader.plaintext.length := by
    by_contra hend
    exact hheld (List.drop_eq_nil_of_le (not_lt.mp hend))
  have hflush : stream.writer.pollFlushPending [] = some (.ready (.ok ()),
      { stream.writer with pendingWrite := [], pendingWritePos := 0 }, []) := by
    unfold WriteHalf.pollFlushPending
    exact if_neg hwriter
  rw [NoiseFramedStream.pollRead, hflush]
  dsimp only
  rw [ReadHalf.pollPlaintext, if_pos hreader]
  dsimp only
  rw [htake]
  exact ⟨_, rfl⟩

end Reads

end Ghostbro.Noise
