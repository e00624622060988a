import Mathlib.Data.Fintype.BigOperators
import Ghostbro.Common.Frames
import Ghostbro.Relay.Accounting
import Ghostbro.Relay.Confinement

/-!
# Responses that fit a frame

`handle_ghost_relay` sends the response of `dispatch` in one Noise frame.  Most responses have a
bounded length: texts of the code, a job id, a chunk of `RELAY_MAX_DOWNLOAD_CHUNK` bytes, and the
quota message, whose two numbers are bounded because a spool holds at most one record for each job
id.  A list grows with the sources of the live jobs, and the answer to the download of a failed job
is the error text of its record; neither is cut to the frame.
-/

namespace Ghostbro.Relay

open Machine Noise

/-! ### Lengths -/

theorem length_utf8 (text : String) : (utf8 text).length = text.utf8ByteSize := by
  simp [utf8]

theorem length_utf8_append (text text' : String) :
    (utf8 (text ++ text')).length = (utf8 text).length + (utf8 text').length := by
  simp only [length_utf8, String.utf8ByteSize_append]

/-- A character takes at most four bytes. -/
theorem length_utf8_le (text : String) : (utf8 text).length ≤ 4 * text.length := by
  have hchars (chars : List Char) : (chars.flatMap String.utf8EncodeChar).length ≤
      4 * chars.length := by
    induction chars with
    | nil => exact Nat.le_refl 0
    | cons char chars ih =>
      have hchar := char.utf8Size_le_four
      rw [List.flatMap_cons, List.length_append, String.length_utf8EncodeChar, List.length_cons]
      omega
  rw [utf8_eq_flatMap, ← String.length_toList]
  exact hchars text.toList

/-- The text of a response is at most this long. -/
def maxTextLen : ℕ := maxPlaintextLen - 7

theorem length_relayBytesResponse (status : UInt8) (bytes : Bytes) :
    (relayBytesResponse status bytes).length = bytes.length + 7 := by
  simp [relayBytesResponse, relayHeader, u32ToBe]
  omega

theorem relayBytesResponse_fits (status : UInt8) (bytes : Bytes) :
    (relayBytesResponse status bytes).length ≤ maxPlaintextLen ↔ bytes.length ≤ maxTextLen := by
  rw [length_relayBytesResponse]
  simp only [maxTextLen, maxPlaintextLen, maxFrameLen, noiseTagLen]
  omega

/-- A reply that fits one frame. -/
def Reply.Fits (reply : Reply) : Prop := reply.encode.length ≤ maxPlaintextLen

theorem fits_message (status : Status) (text : String) :
    (Reply.message status text).Fits ↔ (utf8 text).length ≤ maxTextLen :=
  relayBytesResponse_fits status.code (utf8 text)

theorem fits_internalError : internalError.Fits := by
  rw [internalError, fits_message]
  decide

/-- A chunk leaves room for the header, the terminal byte and both lengths. -/
theorem fits_chunkOf (body : Bytes) (offset : ℕ) {maxLen : ℕ}
    (h : maxLen ≤ relayMaxDownloadChunk) : (chunkOf body offset maxLen).Fits := by
  simp only [Reply.Fits, chunkOf, Reply.encode, relayHeader, u32ToBe, List.length_append,
    List.length_cons, List.length_nil, toList_beOctets, length_beBytes, List.length_take,
    List.length_drop, maxPlaintextLen, maxFrameLen, noiseTagLen]
  simp only [relayMaxDownloadChunk] at h
  omega

/-! ### Lists -/

/-- The lines of a list response, each with a line break after it. -/
def linesLen (lines : List String) : ℕ :=
  lines.foldr (fun line len ↦ (utf8 line).length + 1 + len) 0

/-- Joining the lines drops the last line break. -/
theorem length_intercalate (lines : List String) :
    (utf8 (String.intercalate "\n" lines)).length = linesLen lines - 1 := by
  induction lines with
  | nil => rfl
  | cons line lines ih =>
    cases lines with
    | nil => simp [linesLen]
    | cons next rest =>
      have hpositive : 0 < linesLen (next :: rest) := by
        simp only [linesLen, List.foldr_cons]
        omega
      have hnewline : (utf8 "\n").length = 1 := by decide
      have hsum : linesLen (line :: next :: rest) =
          (utf8 line).length + 1 + linesLen (next :: rest) := rfl
      rw [String.intercalate_cons_cons, length_utf8_append, length_utf8_append, ih, hnewline, hsum]
      omega

theorem length_rowsText (rows : List JobRow) :
    (utf8 (rowsText rows)).length = linesLen (rows.map JobRow.text) - 1 := by
  rw [rowsText, length_intercalate]
  congr 1
  have : LeftCommutative fun (line : String) (len : ℕ) ↦ (utf8 line).length + 1 + len :=
    ⟨fun _ _ _ ↦ by omega⟩
  exact (List.mergeSort_perm _ _).foldr_eq 0

/-- The bytes that a live record adds to a list response: the seven columns, the six tabs between
them and a line break. -/
def RelayJobMetadata.lineLen (metadata : RelayJobMetadata) : ℕ :=
  (utf8 metadata.jobId).length + (utf8 metadata.kind.text).length +
    (utf8 metadata.status.text).length + (utf8 (toString (metadata.httpStatus.getD 0))).length +
    (utf8 (toString metadata.bodyLen)).length + 1 + (utf8 metadata.source).length + 7

theorem length_text_row (metadata : RelayJobMetadata) :
    (utf8 metadata.row.text).length + 1 = metadata.lineLen := by
  have htab : (utf8 "\t").length = 1 := by decide
  have hflag : (utf8 (if metadata.row.normalized then "1" else "0")).length = 1 := by
    split <;> decide
  simp only [JobRow.text, String.intercalate_cons_cons, String.intercalate_singleton,
    length_utf8_append, htab, hflag]
  simp only [RelayJobMetadata.row, RelayJobMetadata.lineLen]
  omega

/-- What the record of a job adds to a list response at this time. -/
def lineShare (now : UInt64) (_ : String) (metadata : RelayJobMetadata) : ℕ :=
  if metadata.expiresAtMs ≤ now then 0 else metadata.lineLen

theorem linesLen_list (now : UInt64) (spool : Spool) :
    linesLen ((list now spool).map JobRow.text) = HashMap.total spool.jobs (lineShare now) := by
  unfold list HashMap.total linesLen
  generalize spool.jobs.entries = entries
  induction entries with
  | nil => rfl
  | cons entry entries ih =>
    by_cases hexpired : entry.2.expiresAtMs ≤ now
    · have hdead : ¬now < entry.2.expiresAtMs := UInt64.not_lt.mpr hexpired
      rw [List.filter_cons_of_neg (by simpa using hdead), ih, List.foldr_cons, lineShare,
        if_pos hexpired, Nat.zero_add]
    · have hlive : now < entry.2.expiresAtMs := UInt64.not_le.mp hexpired
      rw [List.filter_cons_of_pos (by simpa using hlive), List.map_cons, List.map_cons,
        List.foldr_cons, List.foldr_cons, ih, lineShare, if_neg hexpired, length_text_row]

theorem fits_rows (now : UInt64) (spool : Spool) :
    (Reply.rows (list now spool)).Fits ↔
      HashMap.total spool.jobs (lineShare now) ≤ maxTextLen + 1 := by
  rw [Reply.Fits, Reply.encode, relayBytesResponse_fits, length_rowsText, linesLen_list]
  omega

/-! ### Job ids -/

/-- Twenty-four hexadecimal digits, as `relay_job_id` writes them. -/
def IsJobId (jobId : String) : Prop :=
  jobId.toList.length = 24 ∧ ∀ char ∈ jobId.toList, ∃ digit : Fin 16, char = Nat.digitChar digit

theorem length_hexText (digest : Bytes) : (hexText digest).length = 2 * digest.length := by
  induction digest with
  | nil => rfl
  | cons byte digest ih =>
    rw [hexText, List.flatMap_cons, List.length_append, ← hexText, ih, List.length_cons]
    simp only [Keys.hexByte, List.length_cons, List.length_nil]
    omega

theorem isJobId_relayJobId (externals : Externals) (keyId : KeyId) (source : String)
    (now : UInt64) : IsJobId (relayJobId externals keyId source now) := by
  unfold relayJobId IsJobId
  rw [String.toList_ofList]
  constructor
  · rw [List.length_take, length_hexText, Vector.length_toList]
    rfl
  · intro char hchar
    exact mem_hexText (List.mem_of_mem_take hchar)

/-- There are `16 ^ width` names of `width` hexadecimal digits. -/
theorem length_le_of_hexDigits {names : List String} {width : ℕ} (hnodup : names.Nodup)
    (hnames : ∀ name ∈ names, name.toList.length = width ∧
      ∀ char ∈ name.toList, ∃ digit : Fin 16, char = Nat.digitChar digit) :
    names.length ≤ 16 ^ width := by
  let name (digits : Fin width → Fin 16) : String :=
    String.ofList (List.ofFn fun i ↦ Nat.digitChar (digits i))
  have hcovered : names.toFinset ⊆ Finset.univ.image name := by
    intro text htext
    obtain ⟨hlength, hchars⟩ := hnames text (List.mem_toFinset.mp htext)
    have hdigit (i : Fin width) : ∃ digit : Fin 16,
        text.toList.get (i.cast hlength.symm) = Nat.digitChar digit :=
      hchars _ (List.get_mem _ _)
    choose digits hdigits using hdigit
    rw [Finset.mem_image]
    refine ⟨digits, Finset.mem_univ digits, ?_⟩
    apply String.toList_injective
    rw [String.toList_ofList]
    apply List.ext_get
    · rw [List.length_ofFn, hlength]
    · intro i hi hi'
      rw [List.get_ofFn]
      exact (hdigits _).symm
  calc names.length = names.toFinset.card := (List.toFinset_card_of_nodup hnodup).symm
    _ ≤ (Finset.univ.image name).card := Finset.card_le_card hcovered
    _ ≤ (Finset.univ : Finset (Fin width → Fin 16)).card := Finset.card_image_le
    _ = 16 ^ width := by
      rw [Finset.card_univ, Fintype.card_fun, Fintype.card_fin, Fintype.card_fin]

/-- Records and copies carry ids that `relay_job_id` may write. -/
structure Issued (state : State) : Prop where
  records : ∀ client fileName metadata,
    (state.spool client).jobs.lookup fileName = some metadata → IsJobId fileName
  copies : ∀ worker job phase metadata, state.workers.lookup worker = some ⟨job, phase⟩ →
    phase.copy = some metadata → IsJobId metadata.jobId

section Runs

variable {externals : Externals} {config : RelayConfig} {state after : State} {event : Event}
  {emitted : Option Output}

theorem issued_start (now : UInt64) : Issued (State.start now) where
  records _ _ _ h := by cases h
  copies _ _ _ _ h := by cases h

theorem Issued.effect (hissued : Issued state) (hnamed : Named state)
    (heffect : Effect externals config state event after emitted) : Issued after where
  records client fileName metadata hlookup := by
    generalize hjobs : (after.spool client).jobs = jobs at hlookup
    have hchange := heffect.records client
    rw [hjobs] at hchange
    cases hchange with
    | same => exact hissued.records client fileName metadata hlookup
    | erased other _ =>
      exact hissued.records client fileName metadata (HashMap.lookup_of_lookup_erase hlookup).2
    | queued keyId submission fault _ _ _ =>
      rw [HashMap.lookup_insert_ite] at hlookup
      split at hlookup
      · rename_i hname
        rw [hname]
        exact isJobId_relayJobId externals keyId submission.source state.now
      · exact hissued.records client fileName metadata hlookup
    | written worker job phase copied revised hworker _ hcopy hrevises =>
      rw [HashMap.lookup_insert_ite] at hlookup
      split at hlookup
      · rename_i hname
        rw [hname, hrevises.jobId]
        exact hissued.copies worker job phase copied hworker hcopy
      · exact hissued.records client fileName metadata hlookup
  copies worker job phase revised hworker hcopy := by
    rcases heffect.copies hworker hcopy with ⟨before, metadata, hbefore, hheld, hrevises⟩ |
      ⟨metadata, hlookup, hrevises⟩
    · rw [hrevises.jobId]
      exact hissued.copies worker job before metadata hbefore hheld
    · rw [hrevises.jobId, hnamed.records _ _ metadata hlookup]
      exact hissued.records _ _ metadata hlookup

/-- Every id in a spool was issued, and names its file. -/
theorem named_and_issued_of_run {now : UInt64} {events : List Event} {outputs : List Output}
    (hrun : Run (step externals config) unrestricted (State.start now) events outputs state) :
    Named state ∧ Issued state := by
  refine hrun.invariant (fun _ state ↦ Named state ∧ Issued state)
    ⟨named_start now, issued_start now⟩ ?_
  intro outputs state event next emitted ⟨hnamed, hissued⟩ _ hstep
  have heffect := effect_of_step hstep
  exact ⟨hnamed.effect heffect, hissued.effect hnamed heffect⟩

theorem issued_of_run {now : UInt64} {events : List Event} {outputs : List Output}
    (hrun : Run (step externals config) unrestricted (State.start now) events outputs state) :
    Issued state :=
  (named_and_issued_of_run hrun).2

/-- The usage count is at most the number of records. -/
theorem clientUsage_le (now : UInt64) (spool : Spool) :
    (clientUsage now spool).1 ≤ spool.jobs.entries.length := by
  have hfold (entries : List (Σ _ : String, RelayJobMetadata)) (usage : ℕ × UInt64) :
      (entries.foldl (fun usage entry ↦
        if entry.2.expiresAtMs ≤ now then usage
        else (usage.1 + 1, usage.2 + entry.2.recorded)) usage).1 ≤ usage.1 + entries.length := by
    induction entries generalizing usage with
    | nil => exact Nat.le_refl _
    | cons entry entries ih =>
      rw [List.foldl_cons, List.length_cons]
      by_cases hexpired : entry.2.expiresAtMs ≤ now
      · rw [if_pos hexpired]
        exact (ih usage).trans (by omega)
      · rw [if_neg hexpired]
        exact (ih _).trans (by simp only; omega)
  have hall := hfold spool.jobs.entries (0, 0)
  rw [Nat.zero_add] at hall
  exact hall

theorem Issued.clientUsage_le (hissued : Issued state) (client : String) :
    (clientUsage state.now (state.spool client)).1 ≤ 16 ^ 24 := by
  refine (Relay.clientUsage_le _ _).trans ?_
  have hnames : ∀ name ∈ (state.spool client).jobs.keys, IsJobId name := by
    intro name hname
    obtain ⟨metadata, hlookup⟩ := AList.lookup_isSome.mpr hname |> Option.isSome_iff_exists.mp
    exact hissued.records client name metadata hlookup
  have hlength := length_le_of_hexDigits (state.spool client).jobs.keys_nodup hnames
  simpa [AList.keys, List.keys] using hlength

/-! ### The replies of a step -/

theorem length_utf8_toString_le {number : ℕ} (h : number ≤ 16 ^ 24) :
    (utf8 (toString number)).length ≤ 116 := by
  have hdigits : number.repr.length ≤ 29 :=
    (Nat.length_repr_le_iff (by decide)).mpr (lt_of_le_of_lt h (by decide))
  exact (length_utf8_le number.repr).trans (by omega)

theorem fits_accepted {jobId : String} (h : IsJobId jobId) : (Reply.accepted jobId).Fits := by
  rw [Reply.Fits, Reply.encode, relayBytesResponse_fits]
  refine (length_utf8_le jobId).trans ?_
  rw [← String.length_toList, h.1]
  decide

/-- The quota message counts jobs and prints the limit only when the count has reached it. -/
theorem Issued.fits_refused (hissued : Issued state) {keyId : KeyId} {submission : Submission}
    {fault : Option String} {reply : Reply}
    (h : enqueue externals config keyId submission state.now fault
      (state.spool (Keys.keyIdHex keyId)) = (reply, none)) : reply.Fits := by
  have hcount := hissued.clientUsage_le (Keys.keyIdHex keyId)
  unfold enqueue at h
  dsimp only at h
  split at h
  · rename_i hjobs
    obtain rfl : _ = reply := by simpa using h
    have hnumber := length_utf8_toString_le hcount
    have hlimit := length_utf8_toString_le (hjobs.trans hcount)
    have hopening : (utf8 "job quota reached (").length = 19 := by decide
    have hmiddle : (utf8 " of ").length = 4 := by decide
    have hclosing : (utf8 ")").length = 1 := by decide
    rw [fits_message]
    simp only [length_utf8_append, hopening, hmiddle, hclosing, maxTextLen, maxPlaintextLen,
      maxFrameLen, noiseTagLen, ToString.toString] at hnumber hlimit ⊢
    omega
  · split at h
    · obtain rfl : _ = reply := by simpa using h
      rw [fits_message]
      decide
    · split at h
      · simp at h
      · obtain rfl : _ = reply := by simpa using h
        exact fits_internalError

/-- A submission is always answered in one frame. -/
theorem Issued.fits_submit (hissued : Issued state) (keyId : KeyId) (submission : Submission)
    (valid : Bool) (fault : Option String) :
    (submitStep externals config state keyId submission valid fault).2.Fits := by
  unfold submitStep
  dsimp only
  split
  · split
    · rename_i reply hrefused
      exact hissued.fits_refused hrefused
    · rename_i reply spool jobId haccepted
      obtain ⟨rfl, rfl, -⟩ := enqueue_eq_some haccepted
      exact fits_accepted (isJobId_relayJobId externals keyId submission.source state.now)
  · exact fits_internalError

/-- A deletion is always answered in one frame. -/
theorem fits_delete {handler : ℕ} {keyId : KeyId} {jobId : String} {reply : Reply}
    (h : (deleteStep state handler keyId jobId).2 = some reply) : reply.Fits := by
  unfold deleteStep at h
  split at h
  · obtain rfl : _ = reply := by simpa using h
    exact fits_internalError
  · split at h
    · obtain rfl : _ = reply := by simpa using h
      rw [fits_message]
      decide
    · cases h

theorem fits_deleteNext {handler : ℕ} {deletion : Deletion} {removed : Bool} {reply : Reply}
    (h : (deleteNextStep state handler deletion removed).2 = some reply) : reply.Fits := by
  unfold deleteNextStep at h
  dsimp only at h
  split at h
  · cases h
  · obtain rfl : _ = reply := by simpa using h
    split
    · rw [fits_message]
      decide
    · exact fits_internalError

/-- A failed job that is not expired has a short error text. -/
def ShortError (now : UInt64) (spool : Spool) (jobId : String) : Prop :=
  ∀ metadata error, spool.jobs.lookup jobId = some metadata → now < metadata.expiresAtMs →
    metadata.status = .failed → metadata.error = some error → (utf8 error).length ≤ maxTextLen

/-- A download is answered in one frame unless it shows an error text that is too long. -/
theorem fits_download {now : UInt64} {spool : Spool} {jobId : String} (offset : UInt32)
    (maxLen : UInt16) (artifact : UInt8)
    (hvalid : ∀ metadata, spool.jobs.lookup jobId = some metadata → validateJobId jobId = true) :
    (download now spool jobId offset maxLen artifact).Fits ↔ ShortError now spool jobId := by
  unfold download ShortError
  cases hlookup : spool.jobs.lookup jobId with
  | none =>
    have hfits : (if !validateJobId jobId then internalError
        else Reply.message .notFound "job not found").Fits := by
      split
      · exact fits_internalError
      · rw [fits_message]
        decide
    simpa using hfits
  | some metadata =>
    rw [hvalid metadata hlookup]
    simp only [Bool.not_true, Bool.false_eq_true, if_false, Option.some.injEq]
    by_cases hexpired : metadata.expiresAtMs ≤ now
    · rw [if_pos hexpired]
      refine iff_of_true (by rw [fits_message]; decide) ?_
      rintro _ error rfl hlive
      exact absurd hlive (UInt64.not_lt.mpr hexpired)
    · rw [if_neg hexpired]
      have hlive : now < metadata.expiresAtMs := UInt64.not_le.mp hexpired
      have hother (hstatus : metadata.status ≠ .failed) {reply : Reply} (hreply : reply.Fits) :
          reply.Fits ↔ ∀ metadata' error, metadata = metadata' → now < metadata'.expiresAtMs →
            metadata'.status = .failed → metadata'.error = some error →
            (utf8 error).length ≤ maxTextLen := by
        refine iff_of_true hreply ?_
        rintro _ error rfl _ hfailed
        exact absurd hfailed hstatus
      cases hstatus : metadata.status with
      | queued => exact hother (by simp [hstatus]) (by rw [fits_message]; decide)
      | running => exact hother (by simp [hstatus]) (by rw [fits_message]; decide)
      | failed =>
        rw [fits_message]
        constructor
        · rintro htext _ error rfl _ _ herror
          simpa [herror] using htext
        · intro hshort
          cases herror : metadata.error with
          | none => decide
          | some error => exact hshort metadata error rfl hlive hstatus herror
      | complete =>
        apply hother (by simp [hstatus])
        dsimp only
        split
        · rw [fits_message]
          decide
        · split
          · exact fits_internalError
          · exact fits_chunkOf _ _ (min_le_right _ _)

/-- An issued id passes the check of a download. -/
theorem validateJobId_of_isJobId {jobId : String} (h : IsJobId jobId) :
    validateJobId jobId = true := by
  have hdigit : ∀ digit : Fin 16, (String.utf8EncodeChar (Nat.digitChar digit)).all
      (fun byte ↦ (Keys.hexDigit byte).isSome || byte = 45) = true := by decide
  rw [validateJobId, Bool.and_eq_true, utf8_eq_flatMap, List.all_flatMap, List.all_eq_true]
  refine ⟨decide_eq_true ?_, ?_⟩
  · rintro rfl
    cases h.1
  · intro char hchar
    obtain ⟨digit, rfl⟩ := h.2 char hchar
    exact hdigit digit

/-- The state before a request keeps its response short: the lines of the live jobs fit one frame,
or the error text of the job does. -/
def Sendable (state : State) (keyId : KeyId) : Request → Prop
  | .list =>
    HashMap.total (state.spool (Keys.keyIdHex keyId)).jobs (lineShare state.now) ≤ maxTextLen + 1
  | .download jobId _ _ _ => ShortError state.now (state.spool (Keys.keyIdHex keyId)) jobId
  | .submit _ | .delete _ => True

/-- What a step of the engine answers to a request. -/
inductive Answer (externals : Externals) (config : RelayConfig) (state : State) (keyId : KeyId) :
    Request → Reply → Prop
  | submit (submission : Submission) (valid : Bool) (fault : Option String) :
      Answer externals config state keyId (.submit submission)
        (submitStep externals config state keyId submission valid fault).2
  | list : Answer externals config state keyId .list
      (.rows (list state.now (state.spool (Keys.keyIdHex keyId))))
  | download (jobId : String) (offset : UInt32) (maxLen : UInt16) (artifact : UInt8) :
      Answer externals config state keyId (.download jobId offset maxLen artifact)
        (download state.now (state.spool (Keys.keyIdHex keyId)) jobId offset maxLen artifact)
  | delete {handler : ℕ} {jobId : String} {reply : Reply}
      (h : (deleteStep state handler keyId jobId).2 = some reply) :
      Answer externals config state keyId (.delete jobId) reply
  | deleteNext {handler : ℕ} {deletion : Deletion} {removed : Bool} {reply : Reply}
      (h : (deleteNextStep state handler deletion removed).2 = some reply) :
      Answer externals config state keyId (.delete deletion.jobId) reply

theorem answer_of_step {keyId : KeyId} {request : Request} {reply : Reply}
    (hstep : step externals config state event =
      some (after, some (.answered keyId request reply))) :
    Answer externals config state keyId request reply := by
  generalize hemitted : some (Output.answered keyId request reply) = emitted at hstep
  cases stepped_of_step hstep with
  | submit =>
    cases hemitted
    exact .submit _ _ _
  | list =>
    cases hemitted
    exact .list
  | download =>
    cases hemitted
    exact .download _ _ _ _
  | delete _ =>
    obtain ⟨answer, hanswer, heq⟩ := Option.map_eq_some_iff.mp hemitted.symm
    cases heq
    exact .delete hanswer
  | deleteNext _ =>
    obtain ⟨answer, hanswer, heq⟩ := Option.map_eq_some_iff.mp hemitted.symm
    cases heq
    exact .deleteNext hanswer
  | tick _ | take _ _ _ | work _ _ | reapStart _ | reapVisit | reapNext _ | reapFinish
  | recoverVisit _ | recoverFinish _ _ | crash => cases hemitted

/-- The reply to a request fits one frame exactly when the state before it keeps it short. -/
theorem Issued.fits_iff (hissued : Issued state) {keyId : KeyId} {request : Request}
    {reply : Reply} (hanswer : Answer externals config state keyId request reply) :
    reply.Fits ↔ Sendable state keyId request := by
  cases hanswer with
  | submit submission valid fault =>
    exact iff_of_true (hissued.fits_submit keyId submission valid fault) trivial
  | list => exact fits_rows state.now (state.spool (Keys.keyIdHex keyId))
  | download jobId offset maxLen artifact =>
    refine fits_download offset maxLen artifact fun metadata hlookup ↦ ?_
    exact validateJobId_of_isJobId (hissued.records _ jobId metadata hlookup)
  | delete h => exact iff_of_true (fits_delete h) trivial
  | deleteNext h => exact iff_of_true (fits_deleteNext h) trivial

/-! ### The responses of the engine -/

/-- `RelayEngine::dispatch` answers the request with the response: one that asks for nothing at
once, any other one in a step from this state. -/
inductive Dispatched (externals : Externals) (config : RelayConfig) (state : State)
    (keyId : KeyId) (request : Bytes) : Bytes → Prop
  | refused {response : Bytes} (hrefused : parseRequest request = .error response) :
      Dispatched externals config state keyId request response
  | answered {parsed : Request} {event : Event} {next : State} {reply : Reply}
      (hparsed : parseRequest request = .ok parsed)
      (hstep : step externals config state event =
        some (next, some (.answered keyId parsed reply))) :
      Dispatched externals config state keyId request reply.encode

theorem fits_of_parseRequest_eq_error {request response : Bytes}
    (h : parseRequest request = .error response) : response.length ≤ maxPlaintextLen := by
  have hinvalid : invalidHeader.length ≤ maxPlaintextLen := by
    rw [invalidHeader, relayBytesResponse_fits]
    decide
  have hunsupported : unsupportedOperation.length ≤ maxPlaintextLen := by
    rw [unsupportedOperation, relayBytesResponse_fits]
    decide
  unfold parseRequest at h
  split at h
  · split at h
    · exact Except.error.inj h ▸ hinvalid
    · split at h
      · exact Except.error.inj h ▸ hunsupported
      · split at h
        · exact Except.error.inj h ▸ fits_internalError
        · cases h
  · exact Except.error.inj h ▸ hinvalid

/-- In every reachable state a response is at most 16368 bytes long, and can be sent, exactly when
the lines of a list or the error text of a download are short enough for it. -/
theorem response_sent_iff {now : UInt64} {events : List Event} {outputs : List Output}
    (hrun : Run (step externals config) unrestricted (State.start now) events outputs state)
    {keyId : KeyId} {request response : Bytes}
    (hdispatched : Dispatched externals config state keyId request response) (snow : Snow)
    (number : ℕ) :
    (response.length ≤ 16368 ↔
      ∀ parsed, parseRequest request = .ok parsed → Sendable state keyId parsed) ∧
    ((writeEncryptedFrame snow number response).isSome ↔
      ∀ parsed, parseRequest request = .ok parsed → Sendable state keyId parsed) := by
  have hfits : response.length ≤ maxPlaintextLen ↔
      ∀ parsed, parseRequest request = .ok parsed → Sendable state keyId parsed := by
    cases hdispatched with
    | refused hrefused =>
      refine iff_of_true (fits_of_parseRequest_eq_error hrefused) fun parsed hparsed ↦ ?_
      cases hrefused.symm.trans hparsed
    | @answered asked event next reply hparsed hstep =>
      have hreply := (issued_of_run hrun).fits_iff (answer_of_step hstep)
      rw [hparsed]
      simpa [Reply.Fits] using hreply
  exact ⟨hfits, (isSome_writeEncryptedFrame snow number response).trans hfits⟩

end Runs

namespace Sample

theorem response_sent_sample :
    ∃ events outputs last, Run sampleStep unrestricted (State.start 1000) events outputs last ∧
      ∃ response, Dispatched externals config last keyId listRequest response ∧
        response.length ≤ 16368 ∧ (writeEncryptedFrame .transparent 1 response).isSome := by
  have hrun := run_running unrestricted trivial trivial trivial trivial
  have hstep : sampleStep running (.list keyId) = some (running,
      some (.answered keyId .list (.rows (list 1000 (running.spool client))))) := rfl
  have hparsed : parseRequest listRequest = .ok .list := rfl
  have hshort : Sendable running keyId .list := by
    unfold Sendable
    decide +kernel
  have hsendable : ∀ parsed, parseRequest listRequest = .ok parsed →
      Sendable running keyId parsed := by
    intro parsed h
    cases hparsed.symm.trans h
    exact hshort
  have hdispatched := Dispatched.answered hparsed hstep
  have hsent := response_sent_iff hrun hdispatched .transparent 1
  exact ⟨_, _, _, hrun, _, hdispatched, hsent.1.mpr hsendable, hsent.2.mpr hsendable⟩

/-- The record of the git job after its clone has failed. -/
def unmirrored (error : String) : RelayJobMetadata := { mirrored .failed with error := some error }

/-- A clone fails, and `git` prints what the remote server says. -/
theorem run_unmirrored (error : String) :
    ∃ events outputs, Run sampleStep unrestricted (State.start 1000) events outputs
      (mirroring (unmirrored error) (scratchA ⟨none, none⟩) [] ∅) := by
  have hstep₁ : sampleStep (mirroringIn ⟨none, none⟩ (.cloning (mirrored .running)))
      (.work 0 (.gitCloned none (.error error))) =
        some (mirroringIn ⟨none, none⟩ (.failing error), none) := rfl
  have hstep₂ : sampleStep (mirroringIn ⟨none, none⟩ (.failing error))
      (.work 0 (.readFailed true)) =
        some (mirroringIn ⟨none, none⟩ (.failWriting (unmirrored error)), none) := rfl
  have hstep₃ : sampleStep (mirroringIn ⟨none, none⟩ (.failWriting (unmirrored error)))
      (.work 0 (.writeFailed none)) =
        some (mirroring (unmirrored error) (scratchA ⟨none, none⟩) [] ∅, none) := rfl
  have hcloning := run_cloning (fun _ _ _ ↦ trivial : ∀ state, ∀ event ∈ cloningEvents,
    unrestricted state event)
  exact ⟨_, _, ((hcloning.snoc trivial hstep₁).snoc trivial hstep₂).snoc trivial hstep₃⟩

def remoteError : String :=
  "git clone --mirror failed: fatal: remote error: " ++ String.ofList (List.replicate 16400 'x')

theorem le_length_utf8_append (text : String) (count : ℕ) :
    count ≤ (utf8 (text ++ String.ofList (List.replicate count 'x'))).length := by
  have hfill : (utf8 (String.ofList (List.replicate count 'x'))).length = count := by
    rw [utf8_eq_flatMap, String.toList_ofList]
    induction count with
    | zero => rfl
    | succ count ih =>
      rw [List.replicate_succ, List.flatMap_cons, List.length_append, ih, Nat.add_comm]
      rfl
  rw [length_utf8_append, hfill]
  exact Nat.le_add_left count _

def downloadRequest : Bytes :=
  relayHeader 3 ++ [0, 24] ++ utf8 jobA.jobId ++ [0, 0, 0, 0, 255, 255]

theorem response_too_long :
    ∃ events outputs last, Run sampleStep unrestricted (State.start 1000) events outputs last ∧
      ∃ response, Dispatched externals config last keyId downloadRequest response ∧
        16368 < response.length ∧
        ∀ snow number, writeEncryptedFrame snow number response = none := by
  obtain ⟨events, outputs, hrun⟩ := run_unmirrored remoteError
  have hstep : sampleStep (mirroring (unmirrored remoteError) (scratchA ⟨none, none⟩) [] ∅)
      (.download keyId jobA.jobId 0 65535 0) =
        some (mirroring (unmirrored remoteError) (scratchA ⟨none, none⟩) [] ∅,
          some (.answered keyId (.download jobA.jobId 0 65535 0)
            (.message .failed remoteError))) := rfl
  have hparsed : parseRequest downloadRequest = .ok (.download jobA.jobId 0 65535 0) := rfl
  have hlength : 16400 ≤ (utf8 remoteError).length := le_length_utf8_append _ _
  have hlong : maxPlaintextLen < (Reply.message .failed remoteError).encode.length := by
    rw [Reply.encode, length_relayBytesResponse]
    simp only [maxPlaintextLen, maxFrameLen, noiseTagLen]
    omega
  refine ⟨events, outputs, _, hrun, _, .answered hparsed hstep, hlong, fun snow number ↦ ?_⟩
  rw [← Option.not_isSome_iff_eq_none, isSome_writeEncryptedFrame]
  exact not_le.mpr hlong

end Sample

end Ghostbro.Relay
