import Ghostbro.Common.Frames
import Ghostbro.Foundation.Machine

/-!
# The Noise stream of the server

`NoiseFramedStream` turns a TCP stream into a byte stream under Noise.  It is polled: a call may
stop at any point where the TCP stream is not ready, and the next call goes on from the four
cursors the stream keeps.  The model splits its fields into the half that reads and the half that
writes, each with its direction of the TCP stream and of the cipher; a buffer that is being filled
is represented by the bytes filled so far.

A call takes the answers of the TCP stream to its polls, in order, and uses up all of them.
-/

namespace Ghostbro.Noise

open Machine

/-- `Poll`. -/
inductive Poll (Value : Type)
  | pending
  | ready (value : Value)

/-- `std::io::Error` by its kind; `stream` is an error of the TCP stream, `cipher` one of
`snow`. -/
inductive IoError
  | stream (text : String)
  | writeZero (text : String)
  | unexpectedEof (text : String)
  | invalidData (text : String)
  | cipher

/-- What the TCP stream answers to one poll.  Reading no bytes is the end of the stream. -/
inductive TcpAnswer
  | pending
  | failed (text : String)
  | wrote (count : ℕ)
  | read (bytes : Bytes)
  | done

/-- What a poll function returns: its value, the half of the stream it works on, and the answers
it has not used. -/
abbrev Polled (Half Value : Type) :=
  Option (Poll (Except IoError Value) × Half × List TcpAnswer)

/-- The fields of `NoiseFramedStream` for writing, the number of messages sent, and everything the
TCP stream has taken. -/
structure WriteHalf where
  pendingWrite : Bytes
  pendingWritePos : ℕ
  sentCount : ℕ
  written : Bytes

/-- The fields of `NoiseFramedStream` for reading, the number of messages received, and everything
the TCP stream has given.  `encryptedReadLen` is the length of `encrypted_read`. -/
structure ReadHalf where
  plaintext : Bytes
  plaintextPos : ℕ
  readLen : Bytes
  encryptedReadLen : ℕ
  encryptedRead : Bytes
  receivedCount : ℕ
  read : Bytes

/-- `NoiseFramedStream`. -/
structure NoiseFramedStream where
  reader : ReadHalf
  writer : WriteHalf

/-- The ciphers of both directions. -/
structure Session where
  outbound : Snow
  inbound : Snow

/-! ### Writing -/

namespace WriteHalf

def new (sentCount : ℕ) : WriteHalf := ⟨[], 0, sentCount, []⟩

/-- `poll_flush_pending`. -/
def pollFlushPending (writer : WriteHalf) (answers : List TcpAnswer) : Polled WriteHalf Unit :=
  if writer.pendingWritePos < writer.pendingWrite.length then
    match answers with
    | .pending :: rest => some (.pending, writer, rest)
    | .failed text :: rest => some (.ready (.error (.stream text)), writer, rest)
    | .wrote 0 :: rest =>
      some (.ready (.error (.writeZero "failed to write Noise frame")), writer, rest)
    | .wrote count :: rest =>
      let unsent := writer.pendingWrite.drop writer.pendingWritePos
      if count ≤ unsent.length then
        pollFlushPending { writer with
          pendingWritePos := writer.pendingWritePos + count
          written := writer.written ++ unsent.take count } rest
      else none
    | _ => none
  else some (.ready (.ok ()), { writer with pendingWrite := [], pendingWritePos := 0 }, answers)

/-- The end of `poll_write`, with a frame to send. -/
def pollFrame (writer : WriteHalf) (encrypted : Bytes) (accepted : ℕ) (answers : List TcpAnswer) :
    Polled WriteHalf ℕ :=
  let framed := { writer with
    pendingWrite := beBytes 2 encrypted.length ++ encrypted
    pendingWritePos := 0
    sentCount := writer.sentCount + 1 }
  match framed.pollFlushPending answers with
  | none => none
  | some (.pending, next, rest) => some (.ready (.ok accepted), next, rest)
  | some (.ready (.error error), next, rest) => some (.ready (.error error), next, rest)
  | some (.ready (.ok ()), next, rest) => some (.ready (.ok accepted), next, rest)

/-- `poll_write`. -/
def pollWrite (snow : Snow) (writer : WriteHalf) (buf : Bytes) (answers : List TcpAnswer) :
    Polled WriteHalf ℕ :=
  match writer.pollFlushPending answers with
  | none => none
  | some (.pending, next, rest) => some (.pending, next, rest)
  | some (.ready (.error error), next, rest) => some (.ready (.error error), next, rest)
  | some (.ready (.ok ()), next, rest) =>
    if buf = [] then some (.ready (.ok 0), next, rest)
    else
      let plaintext := buf.take (min buf.length maxPlaintextLen)
      match snow.writeMessage next.sentCount plaintext with
      | none => some (.ready (.error .cipher), next, rest)
      | some encrypted =>
        if encrypted.length < 2 ^ 16 then next.pollFrame encrypted plaintext.length rest
        else some (.ready (.error (.invalidData "Noise frame too large")),
          { next with sentCount := next.sentCount + 1 }, rest)

/-- `poll_write_vectored`. -/
def pollWriteVectored (snow : Snow) (writer : WriteHalf) (bufs : List Bytes)
    (answers : List TcpAnswer) : Polled WriteHalf ℕ :=
  match bufs.find? fun buf ↦ !buf.isEmpty with
  | none => some (.ready (.ok 0), writer, answers)
  | some buf => writer.pollWrite snow buf answers

/-- `poll_flush` and `poll_shutdown`, which end with the same call of the TCP stream. -/
def pollFlush (writer : WriteHalf) (answers : List TcpAnswer) : Polled WriteHalf Unit :=
  match writer.pollFlushPending answers with
  | none => none
  | some (.pending, next, rest) => some (.pending, next, rest)
  | some (.ready (.error error), next, rest) => some (.ready (.error error), next, rest)
  | some (.ready (.ok ()), next, rest) =>
    match rest with
    | .pending :: rest => some (.pending, next, rest)
    | .failed text :: rest => some (.ready (.error (.stream text)), next, rest)
    | .done :: rest => some (.ready (.ok ()), next, rest)
    | _ => none

end WriteHalf

/-! ### Reading -/

/-- How a loop that fills a buffer ends. -/
inductive Filled
  | pending
  | failed (text : String)
  | closed
  | full

/-- The loops of `poll_read_outer_frame`: poll the TCP stream until `missing` bytes are read.  The
bytes read so far are returned in any case. -/
def fill (missing : ℕ) (answers : List TcpAnswer) : Option (Filled × Bytes × List TcpAnswer) :=
  if 0 < missing then
    match answers with
    | .pending :: rest => some (.pending, [], rest)
    | .failed text :: rest => some (.failed text, [], rest)
    | .read bytes :: rest =>
      if bytes = [] then some (.closed, [], rest)
      else if bytes.length ≤ missing then
        (fill (missing - bytes.length) rest).map fun (filled, gained, rest) ↦
          (filled, bytes ++ gained, rest)
      else none
    | _ => none
  else some (.full, [], answers)

/-- A loop gains at most what is missing, and exactly that when it fills the buffer. -/
theorem fill_eq_some {missing : ℕ} {answers rest : List TcpAnswer} {filled : Filled}
    {gained : Bytes} (h : fill missing answers = some (filled, gained, rest)) :
    rest.length ≤ answers.length ∧ gained.length ≤ missing ∧
      (filled = .full → gained.length = missing) ∧
      (filled = .full → 0 < missing → rest.length < answers.length) ∧
      (filled ≠ .full → gained.length < missing) := by
  fun_induction fill missing answers generalizing gained with
  | case1 missing hmissing rest' =>
    obtain ⟨rfl, rfl, rfl⟩ : Filled.pending = filled ∧ [] = gained ∧ rest' = rest := by
      simpa using h
    simp [hmissing]
  | case2 missing hmissing text rest' =>
    obtain ⟨rfl, rfl, rfl⟩ : Filled.failed text = filled ∧ [] = gained ∧ rest' = rest := by
      simpa using h
    simp [hmissing]
  | case3 missing hmissing rest' =>
    obtain ⟨rfl, rfl, rfl⟩ : Filled.closed = filled ∧ [] = gained ∧ rest' = rest := by simpa using h
    simp [hmissing]
  | case4 missing hmissing bytes rest' hbytes hle ih =>
    obtain ⟨⟨filled', gained', rest''⟩, hfill, heq⟩ := Option.map_eq_some_iff.mp h
    obtain ⟨rfl, rfl, rfl⟩ : filled' = filled ∧ bytes ++ gained' = gained ∧ rest'' = rest := by
      simpa using heq
    have hpositive := List.length_pos_iff.mpr hbytes
    obtain ⟨hrest, hgained, hfull, -, hshort⟩ := ih hfill
    rw [List.length_append, List.length_cons]
    refine ⟨by omega, by omega, fun hfilled ↦ ?_, fun _ _ ↦ by omega, fun hfilled ↦ ?_⟩
    · have := hfull hfilled
      omega
    · have := hshort hfilled
      omega
  | case5 => cases h
  | case6 => cases h
  | case7 answers missing hmissing =>
    obtain ⟨rfl, rfl, rfl⟩ : Filled.full = filled ∧ [] = gained ∧ answers = rest := by simpa using h
    simp only [List.length_nil]
    refine ⟨Nat.le_refl _, Nat.zero_le _, fun _ ↦ by omega, fun _ h ↦ absurd h hmissing, ?_⟩
    intro hfilled
    exact absurd rfl hfilled

namespace ReadHalf

def new (initialPlaintext : Bytes) (receivedCount : ℕ) : ReadHalf :=
  ⟨initialPlaintext, 0, [], 0, [], receivedCount, []⟩

/-- The second loop of `poll_read_outer_frame` and the frame it ends with. -/
def pollReadFrame (reader : ReadHalf) (answers : List TcpAnswer) :
    Polled ReadHalf (Option Bytes) :=
  match fill (reader.encryptedReadLen - reader.encryptedRead.length) answers with
  | none => none
  | some (filled, gained, rest) =>
    let next := { reader with
      encryptedRead := reader.encryptedRead ++ gained
      read := reader.read ++ gained }
    match filled with
    | .pending => some (.pending, next, rest)
    | .failed text => some (.ready (.error (.stream text)), next, rest)
    | .closed =>
      some (.ready (.error (.unexpectedEof "connection closed while reading frame")), next, rest)
    | .full =>
      some (.ready (.ok (some next.encryptedRead)),
        { next with readLen := [], encryptedReadLen := 0, encryptedRead := [] }, rest)

/-- `poll_read_outer_frame`. -/
def pollReadOuterFrame (reader : ReadHalf) (answers : List TcpAnswer) :
    Polled ReadHalf (Option Bytes) :=
  match fill (2 - reader.readLen.length) answers with
  | none => none
  | some (filled, gained, rest) =>
    let next := { reader with
      readLen := reader.readLen ++ gained
      read := reader.read ++ gained }
    match filled with
    | .pending => some (.pending, next, rest)
    | .failed text => some (.ready (.error (.stream text)), next, rest)
    | .closed =>
      if next.readLen = [] then some (.ready (.ok none), next, rest)
      else some (.ready (.error (.unexpectedEof
        "connection closed while reading frame length")), next, rest)
    | .full =>
      if next.encryptedReadLen = 0 then
        let frameLen := beNat next.readLen
        if maxFrameLen < frameLen then
          some (.ready (.error (.invalidData
            s!"frame length {frameLen} exceeds maximum {maxFrameLen}")), next, rest)
        else pollReadFrame { next with encryptedReadLen := frameLen, encryptedRead := [] } rest
      else pollReadFrame next rest

/-- A frame uses an answer, unless all its bytes had been read before. -/
theorem length_lt_of_pollReadOuterFrame {reader next : ReadHalf} {answers rest : List TcpAnswer}
    {frame : Bytes}
    (h : reader.pollReadOuterFrame answers = some (.ready (.ok (some frame)), next, rest)) :
    rest.length + next.readLen.length < answers.length + reader.readLen.length := by
  have hframe {reader' : ReadHalf} {rest' : List TcpAnswer}
      (h : reader'.pollReadFrame rest' = some (.ready (.ok (some frame)), next, rest)) :
      rest.length ≤ rest'.length ∧ next.readLen = [] := by
    unfold pollReadFrame at h
    split at h
    · cases h
    · rename_i filled gained rest'' hfill
      have hle := (fill_eq_some hfill).1
      cases filled <;> cases h
      exact ⟨hle, rfl⟩
  unfold pollReadOuterFrame at h
  split at h
  · cases h
  · rename_i filled gained rest' hfill
    obtain ⟨hle, -, -, hlt, -⟩ := fill_eq_some hfill
    cases filled with
    | pending => cases h
    | failed text => cases h
    | closed =>
      dsimp only at h
      split at h <;> cases h
    | full =>
      dsimp only at h
      have hused : rest'.length < answers.length + reader.readLen.length := by
        by_cases hempty : 0 < 2 - reader.readLen.length
        · have := hlt rfl hempty
          omega
        · omega
      have hdone : rest.length ≤ rest'.length ∧ next.readLen = [] := by
        split at h
        · split at h
          · cases h
          · exact hframe h
        · exact hframe h
      rw [hdone.2, List.length_nil]
      omega

/-- The loop of `poll_read`, with room for `remaining` bytes in the buffer of the caller. -/
def pollPlaintext (snow : Snow) (remaining : ℕ) (reader : ReadHalf) (answers : List TcpAnswer) :
    Polled ReadHalf Bytes :=
  if reader.plaintextPos < reader.plaintext.length then
    let available := reader.plaintext.drop reader.plaintextPos
    let len := min available.length remaining
    let next :=
      if reader.plaintextPos + len = reader.plaintext.length then
        { reader with plaintext := [], plaintextPos := 0 }
      else { reader with plaintextPos := reader.plaintextPos + len }
    some (.ready (.ok (available.take len)), next, answers)
  else
    match _hframe : reader.pollReadOuterFrame answers with
    | none => none
    | some (.pending, next, rest) => some (.pending, next, rest)
    | some (.ready (.error error), next, rest) => some (.ready (.error error), next, rest)
    | some (.ready (.ok none), next, rest) => some (.ready (.ok []), next, rest)
    | some (.ready (.ok (some encrypted)), next, rest) =>
      match snow.readMessage next.receivedCount encrypted with
      | none => some (.ready (.error .cipher), next, rest)
      | some plaintext =>
        pollPlaintext snow remaining { next with
          plaintext := plaintext
          receivedCount := next.receivedCount + 1 } rest
termination_by answers.length + reader.readLen.length
decreasing_by exact length_lt_of_pollReadOuterFrame _hframe

/-- One iteration of the loop. -/
theorem pollPlaintext_eq {snow : Snow} {remaining : ℕ} {reader : ReadHalf}
    {answers : List TcpAnswer} (h : ¬reader.plaintextPos < reader.plaintext.length) :
    reader.pollPlaintext snow remaining answers =
      match reader.pollReadOuterFrame answers with
      | none => none
      | some (.pending, next, rest) => some (.pending, next, rest)
      | some (.ready (.error error), next, rest) => some (.ready (.error error), next, rest)
      | some (.ready (.ok none), next, rest) => some (.ready (.ok []), next, rest)
      | some (.ready (.ok (some encrypted)), next, rest) =>
        match snow.readMessage next.receivedCount encrypted with
        | none => some (.ready (.error .cipher), next, rest)
        | some plaintext =>
          pollPlaintext snow remaining { next with
            plaintext := plaintext
            receivedCount := next.receivedCount + 1 } rest := by
  rw [pollPlaintext, if_neg h]
  split <;> rename_i hframe <;> rw [hframe]

end ReadHalf

/-! ### Calls -/

/-- A call of the stream, with its buffers; `read` has room for `remaining` bytes. -/
inductive Call
  | read (remaining : ℕ)
  | write (buf : Bytes)
  | writeVectored (bufs : List Bytes)
  | flush
  | shutdown

/-- What a call returns when it is ready; a read returns the bytes it put into the buffer. -/
inductive Returned
  | bytes (bytes : Bytes)
  | count (count : ℕ)
  | unit

/-- The result of a call as one that all calls share. -/
def Poll.mapOk {Value Other : Type} (f : Value → Other) :
    Poll (Except IoError Value) → Poll (Except IoError Other)
  | pending => pending
  | ready result => ready (result.map f)

/-- A call and its result. -/
structure Report where
  call : Call
  result : Poll (Except IoError Returned)

namespace Report

/-- The bytes that a call gave to its caller. -/
def obtained (report : Report) : Bytes :=
  match report.result with
  | .ready (.ok (.bytes bytes)) => bytes
  | _ => []

/-- The bytes of its caller that a call reported as accepted. -/
def accepted (report : Report) : Bytes :=
  match report.call, report.result with
  | .write buf, .ready (.ok (.count count)) => buf.take count
  | .writeVectored bufs, .ready (.ok (.count count)) => bufs.flatten.take count
  | _, _ => []

/-- A write that returned an error. -/
def brokenWrite (report : Report) : Bool :=
  match report.call, report.result with
  | .write _, .ready (.error _) | .writeVectored _, .ready (.error _) => true
  | _, _ => false

end Report

namespace NoiseFramedStream

/-- `NoiseFramedStream::new`, on a transport that has sent and received some messages. -/
def new (initialPlaintext : Bytes) (sentCount receivedCount : ℕ) : NoiseFramedStream :=
  ⟨.new initialPlaintext receivedCount, .new sentCount⟩

/-- `poll_read`: flush, then read. -/
def pollRead (session : Session) (stream : NoiseFramedStream) (remaining : ℕ)
    (answers : List TcpAnswer) : Polled NoiseFramedStream Bytes :=
  match stream.writer.pollFlushPending answers with
  | none => none
  | some (.pending, writer, rest) => some (.pending, ⟨stream.reader, writer⟩, rest)
  | some (.ready (.error error), writer, rest) =>
    some (.ready (.error error), ⟨stream.reader, writer⟩, rest)
  | some (.ready (.ok ()), writer, rest) =>
    (stream.reader.pollPlaintext session.inbound remaining rest).map
      fun (result, reader, rest) ↦ (result, ⟨reader, writer⟩, rest)

/-- One call; each works on its half of the stream. -/
def poll (session : Session) (stream : NoiseFramedStream) (answers : List TcpAnswer) :
    Call → Polled NoiseFramedStream Returned
  | .read remaining => (stream.pollRead session remaining answers).map
      fun (result, next, rest) ↦ (result.mapOk .bytes, next, rest)
  | .write buf => (stream.writer.pollWrite session.outbound buf answers).map
      fun (result, writer, rest) ↦ (result.mapOk .count, { stream with writer := writer }, rest)
  | .writeVectored bufs => (stream.writer.pollWriteVectored session.outbound bufs answers).map
      fun (result, writer, rest) ↦ (result.mapOk .count, { stream with writer := writer }, rest)
  | .flush | .shutdown => (stream.writer.pollFlush answers).map
      fun (result, writer, rest) ↦
        (result.mapOk fun _ ↦ .unit, { stream with writer := writer }, rest)

end NoiseFramedStream

/-- A stream and whether a write on it has returned an error, after which its caller makes no
further call. -/
structure Connection where
  stream : NoiseFramedStream
  broken : Bool

/-- One call on a connection, with the answers of the TCP stream to all its polls. -/
def step (session : Session) : Step Connection (Call × List TcpAnswer) Report
  | connection, (call, answers) =>
    if connection.broken then none
    else match connection.stream.poll session answers call with
      | some (result, next, []) =>
        let report : Report := ⟨call, result⟩
        some (⟨next, report.brokenWrite⟩, some report)
      | _ => none

/-- The inversion of `step`. -/
theorem step_eq_some {session : Session} {connection next : Connection} {call : Call}
    {answers : List TcpAnswer} {emitted : Option Report}
    (h : step session connection (call, answers) = some (next, emitted)) :
    connection.broken = false ∧ ∃ result stream,
      connection.stream.poll session answers call = some (result, stream, []) ∧
      next = ⟨stream, Report.brokenWrite ⟨call, result⟩⟩ ∧ emitted = some ⟨call, result⟩ := by
  simp only [step] at h
  split at h
  · cases h
  · rename_i hwhole
    refine ⟨by simpa using hwhole, ?_⟩
    split at h
    · rename_i result stream hpoll
      cases h
      exact ⟨result, stream, hpoll, rfl, rfl⟩
    · cases h

end Ghostbro.Noise
