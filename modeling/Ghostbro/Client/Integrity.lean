import Ghostbro.Client.SocksRelay
import Ghostbro.Server.Delivery

/-!
# Integrity of the tunnel

A direction of a tunnel leads from a `NoiseFramedStream` or the thread `client_to_proxy` to a
`NoiseFramedStream` or the thread `proxy_to_client`.  The runs of the two ends are arbitrary and
independent of each other; TCP connects them only in that what one end has read is a prefix of
what the other one has written.  This covers every interleaving of the two ends and every way in
which TCP cuts the bytes.
-/

namespace Ghostbro.Noise

open Machine

/-- An end of a tunnel that sends from message `first` on: what it has accepted, what it has
written, and what it keeps to write. -/
inductive Sends : Snow → ℕ → Bytes → Bytes → Bytes → Prop
  | server {session : Session} {initial : Bytes} {first received : ℕ}
      {calls : List (Call × List TcpAnswer)} {reports : List Report} {connection : Connection}
      (hrun : Run (step session) unrestricted ⟨.new initial first received, false⟩ calls reports
        connection) :
      Sends session.outbound first (reports.flatMap Report.accepted)
        connection.stream.writer.written connection.stream.writer.unsent
  | client {snow : Snow} {first : ℕ} {events : List Client.UpEvent} {taken : List Bytes}
      {thread : Client.ClientToProxy}
      (hrun : Run (Client.ClientToProxy.step snow) unrestricted (.new first) events taken thread) :
      Sends snow first taken.flatten thread.written thread.unsent.flatten

/-- An end of a tunnel that receives from message `first` on: its initial bytes, what its caller
has obtained, what it has read, and what it has decrypted and not yet given to its caller. -/
inductive Receives : Snow → ℕ → Bytes → Bytes → Bytes → Bytes → Prop
  | server {session : Session} {initial : Bytes} {sent first : ℕ}
      {calls : List (Call × List TcpAnswer)} {reports : List Report} {connection : Connection}
      (hrun : Run (step session) unrestricted ⟨.new initial sent first, false⟩ calls reports
        connection) :
      Receives session.inbound first initial (reports.flatMap Report.obtained)
        connection.stream.reader.read connection.stream.reader.undelivered
  | client {snow : Snow} {first : ℕ} {events : List Client.DownEvent} {given : List Bytes}
      {thread : Client.ProxyToClient}
      (hrun : Run (Client.ProxyToClient.step snow) unrestricted (.new first) events given thread) :
      Receives snow first [] given.flatten thread.read thread.undelivered

variable {snow : Snow} {first : ℕ}
  {accepted written unsent initial obtained bytes undelivered : Bytes}

theorem Receives.obtains (h : Receives snow first initial obtained bytes undelivered) :
    Obtains snow first initial obtained bytes undelivered := by
  cases h with
  | server hrun => exact obtains_of_run hrun
  | client hrun => exact Client.obtains_of_run hrun

/-- The receiver obtains a prefix of its initial bytes and of what the sender has accepted; with
what it holds back it has all of it, once everything is written and read. -/
theorem tunnel_integrity (hsends : Sends snow first accepted written unsent)
    (hreceives : Receives snow first initial obtained bytes undelivered)
    (hbytes : bytes <+: written) :
    obtained <+: initial ++ accepted ∧
      (unsent = [] → bytes = written → obtained ++ undelivered = initial ++ accepted) := by
  have hobtains := hreceives.obtains
  cases hsends with
  | server hrun =>
    rcases sent_of_run hrun with hsent | ⟨-, hpart⟩
    · exact hsent.delivers hobtains hbytes
    · refine ⟨hpart.delivers hobtains hbytes, fun hempty ↦ ?_⟩
      obtain ⟨_, _, _, _, -, -, -, -, hunsent⟩ := hpart
      exact absurd hempty hunsent
  | client hrun => exact (Client.sent_of_run hrun).delivers hobtains hbytes

/-! ### A sample tunnel

The client has sent its greeting, which the server gives to the new stream.  It then sends three
bytes; both sockets cut their frame into pieces. -/

namespace Sample

def session : Session := ⟨.transparent, .transparent⟩

def greeting : Bytes := [5, 1, 0]

def payload : Bytes := [1, 2, 3]

def tag : Bytes := beBytes noiseTagLen 1

/-- The stream of the server, with a half that has nothing to write. -/
def connection (reader : ReadHalf) : Connection := ⟨⟨reader, .new 1⟩, false⟩

theorem step_read {reader next : ReadHalf} {remaining : ℕ} {answers : List TcpAnswer}
    {result : Poll (Except IoError Bytes)}
    (h : reader.pollPlaintext .transparent remaining answers = some (result, next, [])) :
    step session (connection reader) (.read remaining, answers) =
      some (connection next, some ⟨.read remaining, result.mapOk .bytes⟩) := by
  have hflush : (WriteHalf.new 1).pollFlushPending answers =
      some (.ready (.ok ()), .new 1, answers) := by
    unfold WriteHalf.pollFlushPending
    exact if_neg (by decide)
  have hread : NoiseFramedStream.pollRead session ⟨reader, .new 1⟩ remaining answers =
      some (result, ⟨next, .new 1⟩, []) := by
    rw [NoiseFramedStream.pollRead, hflush]
    exact congrArg (Option.map _) h
  simp only [step, connection, NoiseFramedStream.poll, hread]
  rfl

/-- The thread of the client writes the frame of the payload in three pieces. -/
theorem sends_payload :
    Sends .transparent 1 payload ([0, 19] ++ (payload ++ tag)) [] := by
  let framed (unsent : List Bytes) (written : Bytes) : Client.ClientToProxy :=
    ⟨unsent, 2, written, false⟩
  have hstep₁ : Client.ClientToProxy.step .transparent (.new 1) (.read payload) =
      some (framed [[0, 19], payload ++ tag] [], some payload) := rfl
  have hstep₂ : Client.ClientToProxy.step .transparent (framed [[0, 19], payload ++ tag] [])
      (.wrote 1) = some (framed [[19], payload ++ tag] [0], none) := rfl
  have hstep₃ : Client.ClientToProxy.step .transparent (framed [[19], payload ++ tag] [0])
      (.wrote 1) = some (framed [payload ++ tag] [0, 19], none) := rfl
  have hstep₄ : Client.ClientToProxy.step .transparent (framed [payload ++ tag] [0, 19])
      (.wrote 19) = some (framed [] ([0, 19] ++ (payload ++ tag)), none) := rfl
  have hnil : Run (Client.ClientToProxy.step .transparent) unrestricted (.new 1) [] [] (.new 1) :=
    .nil
  exact .client ((((hnil.snoc trivial hstep₁).snoc trivial hstep₂).snoc trivial hstep₃).snoc
    trivial hstep₄)

/-- The half that reads, once the greeting is given. -/
def started : ReadHalf := ⟨[], 0, [], 0, [], 1, []⟩

/-- The half that reads, in the middle of the message. -/
def stopped : ReadHalf := ⟨[], 0, [0, 19], 19, payload, 1, [0, 19] ++ payload⟩

/-- The half that reads, once the payload is given. -/
def ended : ReadHalf := ⟨[], 0, [], 0, [], 2, [0, 19] ++ (payload ++ tag)⟩

/-- The stream gives the greeting, stops within the frame, and gives the payload. -/
theorem receives_payload :
    Receives .transparent 1 greeting (greeting ++ payload) ([0, 19] ++ (payload ++ tag)) [] := by
  have hread₁ : (ReadHalf.new greeting 1).pollPlaintext .transparent 8 [] =
      some (.ready (.ok greeting), started, []) := by
    rw [ReadHalf.pollPlaintext]
    rfl
  have hread₂ : started.pollPlaintext .transparent 8
      [.read [0], .read [19], .read payload, .pending] = some (.pending, stopped, []) := by
    have hframe : started.pollReadOuterFrame [.read [0], .read [19], .read payload, .pending] =
        some (.pending, stopped, []) := rfl
    rw [ReadHalf.pollPlaintext_eq (by decide), hframe]
  have hread₃ : stopped.pollPlaintext .transparent 8 [.read tag] =
      some (.ready (.ok payload), ended, []) := by
    have hframe : stopped.pollReadOuterFrame [.read tag] = some (.ready (.ok (some
        (payload ++ tag))), { ended with receivedCount := 1 }, []) := rfl
    have hmessage : Snow.transparent.readMessage 1 (payload ++ tag) = some payload := rfl
    rw [ReadHalf.pollPlaintext_eq (by decide), hframe]
    dsimp only
    rw [hmessage]
    dsimp only
    rw [ReadHalf.pollPlaintext]
    rfl
  have hnil : Run (step session) unrestricted (connection (.new greeting 1)) [] []
      (connection (.new greeting 1)) := .nil
  exact .server (((hnil.snoc trivial (step_read hread₁)).snoc trivial (step_read hread₂)).snoc
    trivial (step_read hread₃))

theorem tunnel_integrity_sample :
    Sends .transparent 1 payload ([0, 19] ++ (payload ++ tag)) [] ∧
      Receives .transparent 1 greeting (greeting ++ payload) ([0, 19] ++ (payload ++ tag)) [] ∧
      greeting ++ payload <+: greeting ++ payload ∧
      greeting ++ payload ++ [] = greeting ++ payload := by
  have h := tunnel_integrity sends_payload receives_payload (List.prefix_refl _)
  exact ⟨sends_payload, receives_payload, h.1, h.2 rfl rfl⟩

end Sample

end Ghostbro.Noise
