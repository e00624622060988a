import Ghostbro.Server.FramedStream

/-!
# Three readers of one format

The client and the server read frames with `read_exact`, before a tunnel stands and, on the client,
all the time; `NoiseFramedStream` reads them with a machine that can stop after any byte.  All three
ask a stream for the same bytes: two length bytes, then the frame.  They differ where the stream
ends behind the first length byte: there `read_exact` reports the end of the stream like one before
the first byte, and only the machine looks at what it has read.
-/

namespace Ghostbro.Noise

/-! ### Reading with `read_exact` -/

/-- An `anyhow::Error` of a frame reader. -/
inductive ReadError
  | message (text : String)
  | context (text : String) (source : IoError)

/-- `read_exact`: a read that was interrupted, or is not ready, is repeated. -/
def readExact (eof : String) :
    List TcpAnswer → ℕ → Option (Except IoError Bytes × List TcpAnswer)
  | answers, 0 => some (.ok [], answers)
  | .pending :: rest, missing + 1 => readExact eof rest (missing + 1)
  | .failed text :: rest, _ + 1 => some (.error (.stream text), rest)
  | .read bytes :: rest, missing + 1 =>
    if bytes = [] then some (.error (.unexpectedEof eof), rest)
    else if bytes.length ≤ missing + 1 then
      (readExact eof rest (missing + 1 - bytes.length)).map fun (result, rest) ↦
        (result.map (bytes ++ ·), rest)
    else none
  | _, _ + 1 => none

/-- `read_frame_optional`, with the bound on the length that only the server has. -/
def readFrameOptional (eof : String) (limit : Option ℕ) (answers : List TcpAnswer) :
    Option (Except ReadError (Option Bytes) × List TcpAnswer) :=
  match readExact eof answers 2 with
  | none => none
  | some (.error (.unexpectedEof _), rest) => some (.ok none, rest)
  | some (.error error, rest) => some (.error (.context "failed to read frame length" error), rest)
  | some (.ok len, rest) =>
    if ∃ bound ∈ limit, bound < beNat len then
      some (.error (.message
        s!"frame length {beNat len} exceeds maximum {limit.getD 0}"), rest)
    else
      match readExact eof rest (beNat len) with
      | none => none
      | some (.error error, rest) => some (.error (.context "failed to read frame" error), rest)
      | some (.ok frame, rest) => some (.ok (some frame), rest)

/-- `read_frame_optional` of the client. -/
def clientReadFrameOptional : List TcpAnswer →
    Option (Except ReadError (Option Bytes) × List TcpAnswer) :=
  readFrameOptional "failed to fill whole buffer" none

/-- `read_frame_optional` of the server. -/
def serverReadFrameOptional : List TcpAnswer →
    Option (Except ReadError (Option Bytes) × List TcpAnswer) :=
  readFrameOptional "early eof" (some maxFrameLen)

/-! ### All frames of a stream -/

/-- How the iteration of a reader ends. -/
inductive Ending
  | clean
  | failed
  deriving DecidableEq

/-- The frames that a blocking reader returns one after the other. -/
def readFrames (read : List TcpAnswer → Option (Except ReadError (Option Bytes) × List TcpAnswer)) :
    ℕ → List TcpAnswer → Option (List Bytes × Ending)
  | 0, _ => none
  | fuel + 1, answers =>
    match read answers with
    | none => none
    | some (.error _, _) => some ([], .failed)
    | some (.ok none, _) => some ([], .clean)
    | some (.ok (some frame), rest) =>
      (readFrames read fuel rest).map fun (frames, ending) ↦ (frame :: frames, ending)

/-- The frames that `poll_read_outer_frame` returns when it is polled again and again. -/
def pollFrames : ℕ → ReadHalf → List TcpAnswer → Option (List Bytes × Ending)
  | 0, _, _ => none
  | fuel + 1, reader, answers =>
    match reader.pollReadOuterFrame answers with
    | none => none
    | some (.pending, next, rest) => pollFrames fuel next rest
    | some (.ready (.error _), _, _) => some ([], .failed)
    | some (.ready (.ok none), _, _) => some ([], .clean)
    | some (.ready (.ok (some frame)), next, rest) =>
      (pollFrames fuel next rest).map fun (frames, ending) ↦ (frame :: frames, ending)

/-- The frames of a stream, and what is left behind the last whole one. -/
def deframe (stream : Bytes) : List Bytes × Bytes :=
  let len := beNat (stream.take 2)
  let body := stream.drop 2
  if 2 ≤ stream.length ∧ len ≤ body.length then
    let later := deframe (body.drop len)
    (body.take len :: later.1, later.2)
  else ([], stream)
termination_by stream.length
decreasing_by
  rw [List.length_drop, List.length_drop]
  omega

/-- Every length prefix is at most `MAX_FRAME_LEN`. -/
def WithinLimit (stream : Bytes) : Prop :=
  (∀ frame ∈ (deframe stream).1, frame.length ≤ maxFrameLen) ∧
    (2 ≤ (deframe stream).2.length → beNat ((deframe stream).2.take 2) ≤ maxFrameLen)

/-- Answers with the bytes of one request, split in any way and with pauses. -/
inductive Chunks : Bytes → List TcpAnswer → Prop
  | done : Chunks [] []
  | pending {bytes : Bytes} {answers : List TcpAnswer} :
    bytes ≠ [] → Chunks bytes answers → Chunks bytes (.pending :: answers)
  | read {chunk bytes : Bytes} {answers : List TcpAnswer} :
    chunk ≠ [] → Chunks bytes answers → Chunks (chunk ++ bytes) (.read chunk :: answers)

/-- The end of a stream, perhaps after some pauses. -/
def eofAfter (pauses : ℕ) : List TcpAnswer := List.replicate pauses .pending ++ [.read []]

/-- What a stream that ends answers to a reader of frames.  No read gives more than it was asked
for, so none goes beyond the length bytes or the frame. -/
inductive Served : Bytes → List TcpAnswer → Prop
  | endsBefore {part : Bytes} {answers : List TcpAnswer} (pauses : ℕ) :
    part.length < 2 → Chunks part answers → Served part (answers ++ eofAfter pauses)
  | endsInside {len part : Bytes} {lenAnswers answers : List TcpAnswer} (pauses : ℕ) :
    len.length = 2 → part.length < beNat len → Chunks len lenAnswers → Chunks part answers →
    Served (len ++ part) (lenAnswers ++ (answers ++ eofAfter pauses))
  | frame {len frame stream : Bytes} {lenAnswers frameAnswers answers : List TcpAnswer} :
    len.length = 2 → frame.length = beNat len → Chunks len lenAnswers →
    Chunks frame frameAnswers → Served stream answers →
    Served (len ++ (frame ++ stream)) (lenAnswers ++ (frameAnswers ++ answers))

/-! ### Streams and frames -/

theorem deframe_before {part : Bytes} (h : part.length < 2) : deframe part = ([], part) := by
  rw [deframe, if_neg (by omega)]

theorem deframe_inside {len part : Bytes} (hlen : len.length = 2) (h : part.length < beNat len) :
    deframe (len ++ part) = ([], len ++ part) := by
  rw [deframe, ← hlen, List.take_left, List.drop_left, if_neg (by omega)]

theorem deframe_frame {len frame : Bytes} (hlen : len.length = 2) (h : frame.length = beNat len)
    (stream : Bytes) : deframe (len ++ (frame ++ stream)) =
      (frame :: (deframe stream).1, (deframe stream).2) := by
  have hroom : 2 ≤ (len ++ (frame ++ stream)).length ∧ beNat len ≤ (frame ++ stream).length := by
    simp only [List.length_append]
    omega
  rw [deframe]
  rw [← hlen, List.take_left, List.drop_left, ← h, hlen, List.take_left, List.drop_left]
  rw [← h] at hroom
  exact if_pos hroom

theorem Chunks.eq_nil {answers : List TcpAnswer} (h : Chunks [] answers) : answers = [] := by
  generalize hbytes : ([] : Bytes) = bytes at h
  cases h with
  | done => rfl
  | pending hne _ => exact absurd hbytes.symm hne
  | read hne _ => exact absurd (List.append_eq_nil_iff.mp hbytes.symm).1 hne

/-! ### The blocking readers -/

section Blocking

variable {eof : String} {limit : Option ℕ} {bytes : Bytes} {answers : List TcpAnswer}

/-- A request is answered with its bytes. -/
theorem readExact_chunks (h : Chunks bytes answers) (rest : List TcpAnswer) :
    readExact eof (answers ++ rest) bytes.length = some (.ok bytes, rest) := by
  induction h with
  | done => cases rest <;> rfl
  | @pending bytes answers hne _ ih =>
    obtain ⟨missing, hmissing⟩ := Nat.exists_eq_succ_of_ne_zero (List.length_pos_iff.mpr hne).ne'
    rw [hmissing] at ih ⊢
    rw [List.cons_append, readExact, ih]
  | @read chunk bytes answers hne _ ih =>
    have hpos := List.length_pos_iff.mpr hne
    obtain ⟨missing, hmissing⟩ : ∃ missing, (chunk ++ bytes).length = missing + 1 :=
      Nat.exists_eq_succ_of_ne_zero (by rw [List.length_append]; omega)
    have hlength : missing + 1 - chunk.length = bytes.length := by
      rw [← hmissing, List.length_append, Nat.add_sub_cancel_left]
    have hroom : chunk.length ≤ missing + 1 := by
      rw [← hmissing, List.length_append]
      exact Nat.le_add_right _ _
    rw [hmissing, List.cons_append, readExact, if_neg hne, if_pos hroom, hlength, ih]
    rfl

/-- A request that the stream cannot serve ends with the stream. -/
theorem readExact_eof {missing : ℕ} (h : Chunks bytes answers) (hmissing : bytes.length < missing)
    (pauses : ℕ) : readExact eof (answers ++ eofAfter pauses) missing =
      some (.error (.unexpectedEof eof), []) := by
  induction h generalizing missing with
  | done =>
    obtain ⟨missing, rfl⟩ := Nat.exists_eq_succ_of_ne_zero (Nat.ne_of_gt hmissing)
    induction pauses with
    | zero => rfl
    | succ pauses ih => exact ih
  | @pending bytes answers hne _ ih =>
    obtain ⟨missing, rfl⟩ := Nat.exists_eq_succ_of_ne_zero (by omega : missing ≠ 0)
    rw [List.cons_append, readExact, ih hmissing]
  | @read chunk bytes answers hne _ ih =>
    obtain ⟨missing, rfl⟩ := Nat.exists_eq_succ_of_ne_zero (by omega : missing ≠ 0)
    rw [List.length_append] at hmissing
    rw [List.cons_append, readExact, if_neg hne, if_pos (by omega), ih (by omega)]
    rfl

theorem readFrameOptional_before (h : Chunks bytes answers) (hbytes : bytes.length < 2)
    (pauses : ℕ) :
    readFrameOptional eof limit (answers ++ eofAfter pauses) = some (.ok none, []) := by
  rw [readFrameOptional, readExact_eof h hbytes]

theorem readFrameOptional_inside {len : Bytes} {lenAnswers : List TcpAnswer}
    (hlength : len.length = 2) (hlimit : ∀ bound ∈ limit, beNat len ≤ bound)
    (hlen : Chunks len lenAnswers) (h : Chunks bytes answers) (hbytes : bytes.length < beNat len)
    (pauses : ℕ) :
    readFrameOptional eof limit (lenAnswers ++ (answers ++ eofAfter pauses)) =
      some (.error (.context "failed to read frame" (.unexpectedEof eof)), []) := by
  have hwithin : ¬∃ bound ∈ limit, bound < beNat len := by
    rintro ⟨bound, hbound, hlt⟩
    exact absurd (hlimit bound hbound) (by omega)
  rw [readFrameOptional, ← hlength, readExact_chunks hlen]
  dsimp only
  rw [if_neg hwithin, readExact_eof h hbytes]

theorem readFrameOptional_frame {len : Bytes} {lenAnswers : List TcpAnswer}
    (hlength : len.length = 2) (hlimit : ∀ bound ∈ limit, beNat len ≤ bound)
    (hlen : Chunks len lenAnswers) (h : Chunks bytes answers) (hbytes : bytes.length = beNat len)
    (rest : List TcpAnswer) :
    readFrameOptional eof limit (lenAnswers ++ (answers ++ rest)) =
      some (.ok (some bytes), rest) := by
  have hwithin : ¬∃ bound ∈ limit, bound < beNat len := by
    rintro ⟨bound, hbound, hlt⟩
    exact absurd (hlimit bound hbound) (by omega)
  rw [readFrameOptional, ← hlength, readExact_chunks hlen]
  dsimp only
  rw [if_neg hwithin, ← hbytes, readExact_chunks h]

end Blocking

/-! ### The polled reader -/

section Polled

variable {reader : ReadHalf} {chunk : Bytes}

theorem fill_pending {missing : ℕ} (hmissing : 0 < missing) (rest : List TcpAnswer) :
    fill missing (.pending :: rest) = some (.pending, [], rest) := by
  rw [fill, if_pos hmissing]

theorem fill_read {missing : ℕ} (hchunk : chunk ≠ []) (hroom : chunk.length ≤ missing)
    (rest : List TcpAnswer) : fill missing (.read chunk :: rest) =
      (fill (missing - chunk.length) rest).map fun (filled, gained, rest) ↦
        (filled, chunk ++ gained, rest) := by
  have hpos := List.length_pos_iff.mpr hchunk
  rw [fill, if_pos (by omega), if_neg hchunk, if_pos hroom]

theorem fill_eof {missing : ℕ} (hmissing : 0 < missing) (rest : List TcpAnswer) :
    fill missing (.read [] :: rest) = some (.closed, [], rest) := by
  rw [fill, if_pos hmissing, if_pos rfl]

theorem fill_zero (answers : List TcpAnswer) : fill 0 answers = some (.full, [], answers) := by
  unfold fill
  exact if_neg (Nat.lt_irrefl 0)

/-- The reader with more of the length bytes. -/
def ReadHalf.gainLen (reader : ReadHalf) (chunk : Bytes) : ReadHalf :=
  { reader with readLen := reader.readLen ++ chunk, read := reader.read ++ chunk }

/-- The reader with more of the frame. -/
def ReadHalf.gainFrame (reader : ReadHalf) (chunk : Bytes) : ReadHalf :=
  { reader with encryptedRead := reader.encryptedRead ++ chunk, read := reader.read ++ chunk }

theorem pollReadOuterFrame_pending (h : reader.readLen.length < 2) (rest : List TcpAnswer) :
    reader.pollReadOuterFrame (.pending :: rest) = some (.pending, reader, rest) := by
  rw [ReadHalf.pollReadOuterFrame, fill_pending (by omega)]
  simp

theorem pollReadOuterFrame_read (hchunk : chunk ≠ [])
    (hroom : reader.readLen.length + chunk.length ≤ 2) (rest : List TcpAnswer) :
    reader.pollReadOuterFrame (.read chunk :: rest) =
      (reader.gainLen chunk).pollReadOuterFrame rest := by
  have hmissing : 2 - (reader.readLen ++ chunk).length =
      2 - reader.readLen.length - chunk.length := by
    rw [List.length_append]
    omega
  rw [ReadHalf.pollReadOuterFrame, ReadHalf.pollReadOuterFrame, ReadHalf.gainLen, hmissing,
    fill_read hchunk (by omega)]
  cases fill (2 - reader.readLen.length - chunk.length) rest with
  | none => rfl
  | some result => simp

/-- The reader with room for the frame that its length bytes announce. -/
def ReadHalf.atFrame (reader : ReadHalf) : ReadHalf :=
  { reader with encryptedReadLen := beNat reader.readLen, encryptedRead := [] }

theorem pollReadOuterFrame_header (hlength : reader.readLen.length = 2)
    (hencrypted : reader.encryptedReadLen = 0) (hlimit : beNat reader.readLen ≤ maxFrameLen)
    (answers : List TcpAnswer) :
    reader.pollReadOuterFrame answers = reader.atFrame.pollReadFrame answers := by
  rw [ReadHalf.pollReadOuterFrame, hlength, Nat.sub_self, fill_zero]
  simp [ReadHalf.atFrame, hencrypted, Nat.not_lt.mpr hlimit]

theorem pollReadOuterFrame_resumed (hlength : reader.readLen.length = 2)
    (hencrypted : reader.encryptedReadLen ≠ 0) (answers : List TcpAnswer) :
    reader.pollReadOuterFrame answers = reader.pollReadFrame answers := by
  rw [ReadHalf.pollReadOuterFrame, hlength, Nat.sub_self, fill_zero]
  simp [hencrypted]

theorem pollReadFrame_pending (h : reader.encryptedRead.length < reader.encryptedReadLen)
    (rest : List TcpAnswer) :
    reader.pollReadFrame (.pending :: rest) = some (.pending, reader, rest) := by
  rw [ReadHalf.pollReadFrame, fill_pending (by omega)]
  simp

theorem pollReadFrame_read (hchunk : chunk ≠ [])
    (hroom : reader.encryptedRead.length + chunk.length ≤ reader.encryptedReadLen)
    (rest : List TcpAnswer) : reader.pollReadFrame (.read chunk :: rest) =
      (reader.gainFrame chunk).pollReadFrame rest := by
  have hmissing : reader.encryptedReadLen - (reader.encryptedRead ++ chunk).length =
      reader.encryptedReadLen - reader.encryptedRead.length - chunk.length := by
    rw [List.length_append]
    omega
  rw [ReadHalf.pollReadFrame, ReadHalf.pollReadFrame, ReadHalf.gainFrame, hmissing,
    fill_read hchunk (by omega)]
  cases fill (reader.encryptedReadLen - reader.encryptedRead.length - chunk.length) rest with
  | none => rfl
  | some result => simp

theorem pollReadFrame_full (h : reader.encryptedRead.length = reader.encryptedReadLen)
    (answers : List TcpAnswer) : reader.pollReadFrame answers =
      some (.ready (.ok (some reader.encryptedRead)),
        { reader with readLen := [], encryptedReadLen := 0, encryptedRead := [] }, answers) := by
  rw [ReadHalf.pollReadFrame, h, Nat.sub_self, fill_zero]
  simp

theorem pollReadFrame_eof (h : reader.encryptedRead.length < reader.encryptedReadLen)
    (rest : List TcpAnswer) : ∃ next, reader.pollReadFrame (.read [] :: rest) =
      some (.ready (.error (.unexpectedEof "connection closed while reading frame")), next,
        rest) := by
  rw [ReadHalf.pollReadFrame, fill_eof (by omega)]
  exact ⟨_, rfl⟩

end Polled

/-! ### Runs of the polled reader -/

/-- With enough fuel the iteration ends with this result. -/
def Yields (run : ℕ → Option (List Bytes × Ending)) (result : List Bytes × Ending) : Prop :=
  ∃ bound, ∀ fuel, bound ≤ fuel → run fuel = some result

theorem Yields.unique {run : ℕ → Option (List Bytes × Ending)}
    {result result' : List Bytes × Ending} (h : Yields run result)
    (h' : Yields run result') : result = result' := by
  obtain ⟨bound, hbound⟩ := h
  obtain ⟨bound', hbound'⟩ := h'
  have hsome := hbound (max bound bound') (Nat.le_max_left _ _)
  rw [hbound' (max bound bound') (Nat.le_max_right _ _)] at hsome
  exact (Option.some.inj hsome).symm

/-- One more unit of fuel is enough for one more step. -/
theorem yields_succ {run run' : ℕ → Option (List Bytes × Ending)}
    {result result' : List Bytes × Ending} (h : Yields run result)
    (hstep : ∀ fuel, run fuel = some result → run' (fuel + 1) = some result') :
    Yields run' result' := by
  obtain ⟨bound, hbound⟩ := h
  refine ⟨bound + 1, fun fuel hfuel ↦ ?_⟩
  obtain ⟨fuel, rfl⟩ := Nat.exists_eq_succ_of_ne_zero (by omega : fuel ≠ 0)
  exact hstep fuel (hbound fuel (by omega))

theorem yields_of_succ {run : ℕ → Option (List Bytes × Ending)} {result : List Bytes × Ending}
    (h : ∀ fuel, run (fuel + 1) = some result) : Yields run result := by
  refine ⟨1, fun fuel hfuel ↦ ?_⟩
  obtain ⟨fuel, rfl⟩ := Nat.exists_eq_succ_of_ne_zero (by omega : fuel ≠ 0)
  exact h fuel

/-- A polled reader that yields these frames and then ends so. -/
abbrev Polls (reader : ReadHalf) (answers : List TcpAnswer) (result : List Bytes × Ending) : Prop :=
  Yields (fun fuel ↦ pollFrames fuel reader answers) result

section Polls

variable {reader reader' next : ReadHalf} {answers answers' rest : List TcpAnswer}
  {result : List Bytes × Ending} {bytes : Bytes}

theorem polls_congr
    (h : reader.pollReadOuterFrame answers = reader'.pollReadOuterFrame answers')
    (hpolls : Polls reader' answers' result) : Polls reader answers result := by
  obtain ⟨bound, hbound⟩ := hpolls
  refine ⟨bound + 1, fun fuel hfuel ↦ ?_⟩
  obtain ⟨fuel, rfl⟩ := Nat.exists_eq_succ_of_ne_zero (by omega : fuel ≠ 0)
  have hrun : pollFrames (fuel + 1) reader' answers' = some result :=
    hbound (fuel + 1) (by omega)
  rw [pollFrames, ← h] at hrun
  exact hrun

theorem polls_pending (h : reader.pollReadOuterFrame answers = some (.pending, next, rest))
    (hpolls : Polls next rest result) : Polls reader answers result :=
  yields_succ hpolls fun fuel hfuel ↦ by rw [pollFrames, h, ← hfuel]

theorem polls_clean (h : reader.pollReadOuterFrame answers = some (.ready (.ok none), next, rest)) :
    Polls reader answers ([], .clean) :=
  yields_of_succ fun fuel ↦ by rw [pollFrames, h]

theorem polls_failed {error : IoError}
    (h : reader.pollReadOuterFrame answers = some (.ready (.error error), next, rest)) :
    Polls reader answers ([], .failed) :=
  yields_of_succ fun fuel ↦ by rw [pollFrames, h]

theorem polls_frame {frame : Bytes} {frames : List Bytes} {ending : Ending}
    (h : reader.pollReadOuterFrame answers = some (.ready (.ok (some frame)), next, rest))
    (hpolls : Polls next rest (frames, ending)) :
    Polls reader answers (frame :: frames, ending) := by
  apply yields_succ hpolls
  intro fuel hfuel
  rw [pollFrames, h]
  dsimp only at hfuel ⊢
  rw [hfuel]
  rfl

theorem gainLen_nil (reader : ReadHalf) : reader.gainLen [] = reader := by
  rw [ReadHalf.gainLen, List.append_nil, List.append_nil]

theorem gainLen_append (reader : ReadHalf) (chunk bytes : Bytes) :
    (reader.gainLen chunk).gainLen bytes = reader.gainLen (chunk ++ bytes) := by
  simp only [ReadHalf.gainLen, List.append_assoc]

theorem gainFrame_nil (reader : ReadHalf) : reader.gainFrame [] = reader := by
  rw [ReadHalf.gainFrame, List.append_nil, List.append_nil]

theorem gainFrame_append (reader : ReadHalf) (chunk bytes : Bytes) :
    (reader.gainFrame chunk).gainFrame bytes = reader.gainFrame (chunk ++ bytes) := by
  simp only [ReadHalf.gainFrame, List.append_assoc]

/-- The length bytes may come in any parts, with pauses between them. -/
theorem polls_len (h : Chunks bytes answers) (hroom : reader.readLen.length + bytes.length ≤ 2)
    (hpolls : Polls (reader.gainLen bytes) rest result) :
    Polls reader (answers ++ rest) result := by
  induction h generalizing reader with
  | done => rwa [gainLen_nil] at hpolls
  | @pending bytes answers hne _ ih =>
    have hpos := List.length_pos_iff.mpr hne
    exact polls_pending (pollReadOuterFrame_pending (by omega) _) (ih hroom hpolls)
  | @read chunk bytes answers hne _ ih =>
    rw [List.length_append] at hroom
    rw [← gainLen_append] at hpolls
    apply polls_congr (pollReadOuterFrame_read hne (by omega) _)
    apply ih _ hpolls
    rw [ReadHalf.gainLen, List.length_append]
    omega

/-- And so may the bytes of a frame. -/
theorem polls_gainFrame (h : Chunks bytes answers) (hlen : reader.readLen.length = 2)
    (hencrypted : reader.encryptedReadLen ≠ 0)
    (hroom : reader.encryptedRead.length + bytes.length ≤ reader.encryptedReadLen)
    (hpolls : Polls (reader.gainFrame bytes) rest result) :
    Polls reader (answers ++ rest) result := by
  induction h generalizing reader with
  | done => rwa [gainFrame_nil] at hpolls
  | @pending bytes answers hne _ ih =>
    have hpos := List.length_pos_iff.mpr hne
    have hpending := pollReadFrame_pending (by omega : reader.encryptedRead.length <
      reader.encryptedReadLen) (answers ++ rest)
    rw [← pollReadOuterFrame_resumed hlen hencrypted] at hpending
    exact polls_pending hpending (ih hlen hencrypted hroom hpolls)
  | @read chunk bytes answers hne _ ih =>
    rw [List.length_append] at hroom
    rw [← gainFrame_append] at hpolls
    have hlen' : (reader.gainFrame chunk).readLen.length = 2 := hlen
    have hencrypted' : (reader.gainFrame chunk).encryptedReadLen ≠ 0 := hencrypted
    have hgain : reader.pollReadOuterFrame (.read chunk :: (answers ++ rest)) =
        (reader.gainFrame chunk).pollReadOuterFrame (answers ++ rest) := by
      rw [pollReadOuterFrame_resumed hlen hencrypted, pollReadFrame_read hne (by omega),
        pollReadOuterFrame_resumed hlen' hencrypted']
    apply polls_congr hgain
    apply ih hlen' hencrypted' _ hpolls
    have hlength : (reader.gainFrame chunk).encryptedRead.length =
        reader.encryptedRead.length + chunk.length := List.length_append
    have hsame : (reader.gainFrame chunk).encryptedReadLen = reader.encryptedReadLen := rfl
    omega

/-- The stream ends at or inside the length bytes; the reader knows which. -/
theorem polls_eof_len (h : reader.readLen.length < 2) (pauses : ℕ) :
    Polls reader (eofAfter pauses) ([], if reader.readLen = [] then .clean else .failed) := by
  induction pauses with
  | zero =>
    have hpoll : reader.pollReadOuterFrame [.read []] =
        if reader.readLen = [] then some (.ready (.ok none), reader, [])
        else some (.ready (.error (.unexpectedEof
          "connection closed while reading frame length")), reader, []) := by
      rw [ReadHalf.pollReadOuterFrame, fill_eof (by omega)]
      simp
    split
    · next hempty => exact polls_clean (hpoll.trans (if_pos hempty))
    · next hpart => exact polls_failed (hpoll.trans (if_neg hpart))
  | succ pauses ih => exact polls_pending (pollReadOuterFrame_pending h _) ih

theorem polls_eof_frame (hlen : reader.readLen.length = 2)
    (h : reader.encryptedRead.length < reader.encryptedReadLen) (pauses : ℕ) :
    Polls reader (eofAfter pauses) ([], .failed) := by
  have hencrypted : reader.encryptedReadLen ≠ 0 := by omega
  induction pauses with
  | zero =>
    obtain ⟨next, hpoll⟩ := pollReadFrame_eof h []
    exact polls_failed ((pollReadOuterFrame_resumed hlen hencrypted _).trans hpoll)
  | succ pauses ih =>
    have hpending := pollReadFrame_pending h (eofAfter pauses)
    rw [← pollReadOuterFrame_resumed hlen hencrypted] at hpending
    exact polls_pending hpending ih

/-- The reader stands between two frames. -/
def ReadHalf.Between (reader : ReadHalf) : Prop :=
  reader.readLen = [] ∧ reader.encryptedReadLen = 0

theorem ReadHalf.Between.readLen_gainLen (h : reader.Between) (len : Bytes) :
    (reader.gainLen len).readLen = len := by
  rw [ReadHalf.gainLen, h.1, List.nil_append]

theorem polls_header {len : Bytes} {lenAnswers : List TcpAnswer} (hbetween : reader.Between)
    (hlength : len.length = 2) (hlen : Chunks len lenAnswers)
    (hpolls : Polls (reader.gainLen len) answers result) :
    Polls reader (lenAnswers ++ answers) result := by
  apply polls_len hlen _ hpolls
  rw [hbetween.1, List.length_nil, hlength]

/-- Behind the length bytes of a frame that is not empty, the reader gains its bytes. -/
theorem polls_inFrame {part : Bytes} {partAnswers : List TcpAnswer}
    (hlength : reader.readLen.length = 2) (hencrypted : reader.encryptedReadLen = 0)
    (hlimit : beNat reader.readLen ≤ maxFrameLen) (hnonzero : beNat reader.readLen ≠ 0)
    (hpart : part.length ≤ beNat reader.readLen) (h : Chunks part partAnswers)
    (hpolls : Polls (reader.atFrame.gainFrame part) answers result) :
    Polls reader (partAnswers ++ answers) result := by
  have hlength' : reader.atFrame.readLen.length = 2 := hlength
  have hencrypted' : reader.atFrame.encryptedReadLen ≠ 0 := hnonzero
  have hroom : reader.atFrame.encryptedRead.length + part.length ≤
      reader.atFrame.encryptedReadLen := (Nat.zero_add part.length).trans_le hpart
  have hheader := pollReadOuterFrame_header hlength hencrypted hlimit (partAnswers ++ answers)
  rw [← pollReadOuterFrame_resumed hlength' hencrypted'] at hheader
  exact polls_congr hheader (polls_gainFrame h hlength' hencrypted' hroom hpolls)

/-- A frame ends when its last byte is read, an empty one with its length bytes. -/
theorem polls_wholeFrame {frame : Bytes} {frameAnswers : List TcpAnswer}
    {frames : List Bytes} {ending : Ending} (hlength : reader.readLen.length = 2)
    (hencrypted : reader.encryptedReadLen = 0) (hlimit : beNat reader.readLen ≤ maxFrameLen)
    (hframe : frame.length = beNat reader.readLen) (h : Chunks frame frameAnswers)
    (hpolls : ∀ next : ReadHalf, next.Between → Polls next answers (frames, ending)) :
    Polls reader (frameAnswers ++ answers) (frame :: frames, ending) := by
  by_cases hempty : beNat reader.readLen = 0
  · obtain rfl : frame = [] := List.eq_nil_of_length_eq_zero (hframe.trans hempty)
    have hfull := @pollReadFrame_full reader.atFrame hempty.symm answers
    rw [← pollReadOuterFrame_header hlength hencrypted hlimit] at hfull
    rw [h.eq_nil]
    exact polls_frame hfull (hpolls _ ⟨rfl, rfl⟩)
  · have hread : (reader.atFrame.gainFrame frame).encryptedRead = frame := List.nil_append frame
    have hlength' : (reader.atFrame.gainFrame frame).readLen.length = 2 := hlength
    have hencrypted' : (reader.atFrame.gainFrame frame).encryptedReadLen ≠ 0 := hempty
    have hfull := @pollReadFrame_full (reader.atFrame.gainFrame frame)
      (by rw [hread]; exact hframe) answers
    rw [← pollReadOuterFrame_resumed hlength' hencrypted', hread] at hfull
    apply polls_inFrame hlength hencrypted hlimit hempty hframe.le h
    exact polls_frame hfull (hpolls _ ⟨rfl, rfl⟩)

/-- What the polled reader makes of a stream. -/
theorem polls_served {stream : Bytes} (hserved : Served stream answers)
    (hwithin : WithinLimit stream) (hbetween : reader.Between) :
    Polls reader answers
      ((deframe stream).1, if (deframe stream).2 = [] then .clean else .failed) := by
  induction hserved generalizing reader with
  | @endsBefore part answers pauses hpart hchunks =>
    rw [deframe_before hpart]
    have hread := hbetween.readLen_gainLen part
    have heof := @polls_eof_len (reader.gainLen part) (by rwa [hread]) pauses
    rw [hread] at heof
    apply polls_len hchunks _ heof
    rw [hbetween.1, List.length_nil]
    omega
  | @endsInside len part lenAnswers answers pauses hlength hpart hlen hchunks =>
    have hread := hbetween.readLen_gainLen len
    have hne : len ++ part ≠ [] := by
      intro hnil
      rw [(List.append_eq_nil_iff.mp hnil).1] at hlength
      cases hlength
    have hlimit : beNat len ≤ maxFrameLen := by
      have hrest := hwithin.2
      rw [deframe_inside hlength hpart, ← hlength, List.take_left] at hrest
      exact hrest (by simp)
    have hlength' : (reader.gainLen len).readLen.length = 2 := by rw [hread, hlength]
    have hnonzero : beNat len ≠ 0 := by omega
    rw [deframe_inside hlength hpart, if_neg hne]
    apply polls_header hbetween hlength hlen
    have hread' : ((reader.gainLen len).atFrame.gainFrame part).encryptedRead = part :=
      List.nil_append part
    apply polls_inFrame hlength' hbetween.2 (by rwa [hread]) (by rwa [hread])
      (by rw [hread]; exact hpart.le) hchunks
    have hshort : ((reader.gainLen len).atFrame.gainFrame part).encryptedRead.length <
        ((reader.gainLen len).atFrame.gainFrame part).encryptedReadLen := by
      rw [hread']
      exact hpart.trans_eq (congrArg beNat hread.symm)
    exact @polls_eof_frame ((reader.gainLen len).atFrame.gainFrame part) hlength' hshort pauses
  | @frame len frame stream lenAnswers frameAnswers answers hlength hframe hlen hchunks _ ih =>
    have hread := hbetween.readLen_gainLen len
    have hdeframe := deframe_frame hlength hframe stream
    have hlength' : (reader.gainLen len).readLen.length = 2 := by rw [hread, hlength]
    obtain ⟨hframes, hrest⟩ := hwithin
    rw [hdeframe] at hframes hrest ⊢
    rw [List.forall_mem_cons] at hframes
    apply polls_header hbetween hlength hlen
    apply polls_wholeFrame hlength' hbetween.2 (by rw [hread, ← hframe]; exact hframes.1)
      (by rwa [hread]) hchunks
    intro next hnext
    exact ih ⟨hframes.2, hrest⟩ hnext

end Polls

/-! ### Runs of the blocking readers -/

/-- What a blocking reader makes of a stream: behind one length byte it does not see that a frame
has begun. -/
theorem reads_served {eof : String} {limit : Option ℕ} {stream : Bytes}
    {answers : List TcpAnswer} (hlimit : ∀ bound ∈ limit, maxFrameLen ≤ bound)
    (hserved : Served stream answers) (hwithin : WithinLimit stream) :
    Yields (fun fuel ↦ readFrames (readFrameOptional eof limit) fuel answers)
      ((deframe stream).1, if (deframe stream).2.length < 2 then .clean else .failed) := by
  induction hserved with
  | @endsBefore part answers pauses hpart hchunks =>
    rw [deframe_before hpart, if_pos hpart]
    apply yields_of_succ
    intro fuel
    rw [readFrames, readFrameOptional_before hchunks hpart]
  | @endsInside len part lenAnswers answers pauses hlength hpart hlen hchunks =>
    have hwhole : ¬(len ++ part).length < 2 := by
      rw [List.length_append, hlength]
      omega
    have hlen' : beNat len ≤ maxFrameLen := by
      have hrest := hwithin.2
      rw [deframe_inside hlength hpart, ← hlength, List.take_left] at hrest
      exact hrest (by simp)
    have hbounds : ∀ bound ∈ limit, beNat len ≤ bound := fun bound hbound ↦
      hlen'.trans (hlimit bound hbound)
    rw [deframe_inside hlength hpart, if_neg hwhole]
    apply yields_of_succ
    intro fuel
    rw [readFrames, readFrameOptional_inside hlength hbounds hlen hchunks hpart]
  | @frame len frame stream lenAnswers frameAnswers answers hlength hframe hlen hchunks _ ih =>
    obtain ⟨hframes, hrest⟩ := hwithin
    rw [deframe_frame hlength hframe stream] at hframes hrest ⊢
    rw [List.forall_mem_cons] at hframes
    have hbounds : ∀ bound ∈ limit, beNat len ≤ bound := fun bound hbound ↦
      (hframe ▸ hframes.1).trans (hlimit bound hbound)
    apply yields_succ (ih ⟨hframes.2, hrest⟩)
    intro fuel hfuel
    rw [readFrames, readFrameOptional_frame hlength hbounds hlen hchunks hframe]
    dsimp only at hfuel ⊢
    rw [hfuel]
    rfl

/-! ### Agreement -/

/-- A reader returns the frames of the stream, then ends cleanly at the end of a frame and fails
inside one. -/
def ReadsStream (stream : Bytes) (run : ℕ → Option (List Bytes × Ending)) : Prop :=
  Yields run ((deframe stream).1, if (deframe stream).2 = [] then .clean else .failed)

/-- The three readers return the same frames.  All of them tell a cut stream from a finished one
exactly if the stream is not cut between two length bytes. -/
theorem frame_readers_agree_iff {stream : Bytes} (hwithin : WithinLimit stream)
    {clientAnswers serverAnswers polledAnswers : List TcpAnswer}
    (hclient : Served stream clientAnswers) (hserver : Served stream serverAnswers)
    (hpolled : Served stream polledAnswers) (plaintext : Bytes) (receivedCount : ℕ) :
    ((∃ ending, Yields (fun fuel ↦ readFrames clientReadFrameOptional fuel clientAnswers)
        ((deframe stream).1, ending)) ∧
      (∃ ending, Yields (fun fuel ↦ readFrames serverReadFrameOptional fuel serverAnswers)
        ((deframe stream).1, ending)) ∧
      ∃ ending, Yields (fun fuel ↦ pollFrames fuel (.new plaintext receivedCount) polledAnswers)
        ((deframe stream).1, ending)) ∧
    ((ReadsStream stream (fun fuel ↦ readFrames clientReadFrameOptional fuel clientAnswers) ∧
        ReadsStream stream (fun fuel ↦ readFrames serverReadFrameOptional fuel serverAnswers) ∧
        ReadsStream stream fun fuel ↦
          pollFrames fuel (.new plaintext receivedCount) polledAnswers) ↔
      (deframe stream).2.length ≠ 1) := by
  have hreadClient := @reads_served "failed to fill whole buffer" none stream clientAnswers
    (by simp) hclient hwithin
  have hreadServer := @reads_served "early eof" (some maxFrameLen) stream serverAnswers
    (by simp) hserver hwithin
  have hbetween : (ReadHalf.new plaintext receivedCount).Between := ⟨rfl, rfl⟩
  have hpolls := polls_served hpolled hwithin hbetween
  refine ⟨⟨⟨_, hreadClient⟩, ⟨_, hreadServer⟩, ⟨_, hpolls⟩⟩, ?_⟩
  constructor
  · rintro ⟨hreads, -, -⟩ hone
    have hsame := hreads.unique hreadClient
    have hne : (deframe stream).2 ≠ [] := List.ne_nil_of_length_pos (by omega)
    rw [if_neg hne, if_pos (by omega)] at hsame
    cases (Prod.mk.inj hsame).2
  · intro hone
    have hending : (if (deframe stream).2.length < 2 then Ending.clean else .failed) =
        if (deframe stream).2 = [] then .clean else .failed := by
      have hempty : (deframe stream).2.length < 2 ↔ (deframe stream).2 = [] := by
        rw [← List.length_eq_zero_iff]
        omega
      simp only [hempty]
    rw [hending] at hreadClient hreadServer
    exact ⟨hreadClient, hreadServer, hpolls⟩

theorem chunks_single {bytes : Bytes} (h : bytes ≠ []) : Chunks bytes [.read bytes] := by
  have hchunks := Chunks.read h .done
  rwa [List.append_nil] at hchunks

/-- A frame of one byte, in one read for each request and byte by byte. -/
theorem frame_readers_agree_sample :
    Served [0, 1, 7] [.read [0, 1], .read [7], .read []] ∧
      Served [0, 1, 7] [.read [0], .pending, .read [1], .read [7], .pending, .read []] ∧
      ReadsStream [0, 1, 7] fun fuel ↦ readFrames clientReadFrameOptional fuel
        [.read [0, 1], .read [7], .read []] := by
  have hdeframe : deframe [0, 1, 7] = ([[7]], []) := by
    rw [show ([0, 1, 7] : Bytes) = [0, 1] ++ ([7] ++ []) from rfl,
      deframe_frame rfl (by decide), deframe_before (by decide)]
  have hwithin : WithinLimit [0, 1, 7] := by
    rw [WithinLimit, hdeframe]
    decide
  have hserved : Served [0, 1, 7] [.read [0, 1], .read [7], .read []] :=
    @Served.frame [0, 1] [7] [] [.read [0, 1]] [.read [7]] [.read []] rfl (by decide)
      (chunks_single (by decide)) (chunks_single (by decide)) (.endsBefore 0 (by decide) .done)
  have hbytewise : Served [0, 1, 7]
      [.read [0], .pending, .read [1], .read [7], .pending, .read []] :=
    @Served.frame [0, 1] [7] [] [.read [0], .pending, .read [1]] [.read [7]] [.pending, .read []]
      rfl (by decide) (@Chunks.read [0] [1] _ (by decide)
        (.pending (by decide) (chunks_single (by decide))))
      (chunks_single (by decide)) (.endsBefore 1 (by decide) .done)
  have hagree := (frame_readers_agree_iff hwithin hserved hbytewise hbytewise [] 0).2
  rw [hdeframe] at hagree
  exact ⟨hserved, hbytewise, (hagree.mpr (by decide)).1⟩

/-- Behind a single length byte, the client takes the end of the stream for a clean one. -/
theorem frame_readers_disagree :
    ¬∀ stream answers, WithinLimit stream → Served stream answers →
      ReadsStream stream fun fuel ↦ readFrames clientReadFrameOptional fuel answers := by
  intro hall
  have hdeframe : deframe [0] = ([], [0]) := deframe_before (by decide)
  have hwithin : WithinLimit [0] := by
    rw [WithinLimit, hdeframe]
    decide
  have hserved : Served [0] [.read [0], .read []] :=
    .endsBefore 0 (by decide) (chunks_single (by decide))
  have hreads := @reads_served "failed to fill whole buffer" none [0] _ (by simp) hserved hwithin
  have hsame := (hall [0] _ hwithin hserved).unique hreads
  rw [hdeframe] at hsame
  cases (Prod.mk.inj hsame).2

end Ghostbro.Noise
