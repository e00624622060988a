import Ghostbro.Common.Frames
import Ghostbro.Foundation.Machine

/-!
# The relay threads of the client

`relay_local_socks5` runs two threads over one connection.  `client_to_proxy` reads from the local
socket and writes one frame for each read; `proxy_to_client` reads frames and writes their
plaintexts to the local socket.  The calls block, so a step of a thread is one return of a socket
call; `write_all` and `read_exact` repeat their call until the buffer is done, and repeat an
interrupted call without a trace.
-/

namespace Ghostbro.Client

open Machine Noise

variable {snow : Snow} {first : ℕ}

/-! ### From the local socket to the proxy -/

/-- The thread `client_to_proxy`: the buffers that `write_frame` still has to write, the number of
messages sent, and everything the proxy socket has taken. -/
structure ClientToProxy where
  unsent : List Bytes
  sentCount : ℕ
  written : Bytes
  finished : Bool

/-- What the sockets of `client_to_proxy` return. -/
inductive UpEvent
  | read (bytes : Bytes)
  | wrote (count : ℕ)
  | failed

namespace ClientToProxy

def new (sentCount : ℕ) : ClientToProxy := ⟨[], sentCount, [], false⟩

/-- `write_encrypted_frame_locked` up to its first write. -/
def frame (snow : Snow) (thread : ClientToProxy) (plaintext : Bytes) : ClientToProxy :=
  match snow.writeMessage thread.sentCount plaintext with
  | none => { thread with finished := true }
  | some message =>
    if message.length < 2 ^ 16 then
      { thread with
        unsent := [beBytes 2 message.length, message]
        sentCount := thread.sentCount + 1 }
    else { thread with sentCount := thread.sentCount + 1, finished := true }

/-- One return of a socket; the output are the bytes read from the local socket. -/
def step (snow : Snow) : Step ClientToProxy UpEvent Bytes
  | thread, .read bytes =>
    if thread.finished = true ∨ thread.unsent ≠ [] ∨ 16 * 1024 - 16 < bytes.length then none
    else if bytes = [] then some ({ thread with finished := true }, none)
    else some (thread.frame snow bytes, some bytes)
  | thread, .wrote count =>
    if thread.finished then none
    else match thread.unsent with
      | [] => none
      | buffer :: rest =>
        if count = 0 then some ({ thread with finished := true }, none)
        else if count ≤ buffer.length then
          some ({ thread with
            unsent := if count = buffer.length then rest else buffer.drop count :: rest
            written := thread.written ++ buffer.take count }, none)
        else none
  | thread, .failed =>
    if thread.finished then none else some ({ thread with finished := true }, none)

end ClientToProxy

theorem sent_frame {thread : ClientToProxy} {accepted plaintext : Bytes}
    (hsent : Sent snow first thread.sentCount accepted thread.written [])
    (hsendable : Sendable plaintext) :
    Sent snow first (thread.frame snow plaintext).sentCount (accepted ++ plaintext)
      (thread.frame snow plaintext).written (thread.frame snow plaintext).unsent.flatten := by
  obtain ⟨message, hmessage⟩ := hsendable.exists_message snow thread.sentCount
  obtain ⟨hframe, -, hle⟩ := writeEncryptedFrame_of_writeMessage hmessage
  have hshort : message.length < 2 ^ 16 := lt_of_le_of_lt hle (by decide)
  have hthread : thread.frame snow plaintext = { thread with
      unsent := [beBytes 2 message.length, message]
      sentCount := thread.sentCount + 1 } := by
    rw [ClientToProxy.frame, hmessage]
    exact if_pos hshort
  rw [hthread]
  exact hsent.accept hsendable hframe (by simp)

/-- Everything the thread has written and has still to write are the frames of what it read. -/
theorem sent_of_run {events : List UpEvent} {taken : List Bytes} {thread : ClientToProxy}
    (hrun : Run (ClientToProxy.step snow) unrestricted (.new first) events taken thread) :
    Sent snow first thread.sentCount taken.flatten thread.written thread.unsent.flatten := by
  refine hrun.invariant (fun taken thread ↦
    Sent snow first thread.sentCount taken.flatten thread.written thread.unsent.flatten)
    (sent_start snow first) ?_
  intro taken thread event next emitted hsent _ hstep
  cases event with
  | read bytes =>
    simp only [ClientToProxy.step] at hstep
    split at hstep
    · cases hstep
    · rename_i hready
      push Not at hready
      obtain ⟨-, hunsent, hroom⟩ := hready
      split at hstep
      · cases hstep
        simpa using hsent
      · rename_i hbytes
        cases hstep
        rw [Option.toList_some, List.flatten_append, List.flatten_singleton]
        rw [hunsent] at hsent
        exact sent_frame hsent ⟨hbytes, hroom⟩
  | wrote count =>
    simp only [ClientToProxy.step] at hstep
    split at hstep
    · cases hstep
    · split at hstep
      · cases hstep
      · rename_i buffer rest hunsent
        rw [hunsent] at hsent
        split at hstep
        · cases hstep
          simpa [hunsent] using hsent
        · split at hstep
          · cases hstep
            rw [Option.toList_none, List.append_nil]
            apply hsent.write
            split
            · rename_i hcount
              rw [hcount, List.take_length, List.flatten_cons, List.append_assoc]
            · rw [List.flatten_cons, List.flatten_cons, List.append_assoc, ← List.append_assoc _ _
                rest.flatten, List.take_append_drop]
          · cases hstep
  | failed =>
    simp only [ClientToProxy.step] at hstep
    split at hstep
    · cases hstep
    · cases hstep
      simpa using hsent

/-! ### From the proxy to the local socket -/

/-- The thread `proxy_to_client`: what it has read of a frame, the number of messages received,
everything the proxy socket has given, and what the local socket did not take. -/
structure ProxyToClient where
  len : Bytes
  frame : Bytes
  receivedCount : ℕ
  read : Bytes
  undelivered : Bytes
  finished : Bool

/-- What the sockets of `proxy_to_client` return.  If the read completes a frame, `failedAt` is
where the `write_all` of its plaintext fails, if it does. -/
inductive DownEvent
  | read (bytes : Bytes) (failedAt : Option ℕ)
  | failed

namespace ProxyToClient

def new (receivedCount : ℕ) : ProxyToClient := ⟨[], [], receivedCount, [], [], false⟩

/-- `read_encrypted_frame_optional_locked` after its last read, and the rest of the loop. -/
def deliver (snow : Snow) (thread : ProxyToClient) (failedAt : Option ℕ) :
    ProxyToClient × Option Bytes :=
  match snow.readMessage thread.receivedCount thread.frame with
  | none => ({ thread with finished := true }, none)
  | some plaintext =>
    let next := { thread with
      len := []
      frame := []
      receivedCount := thread.receivedCount + 1 }
    if plaintext = [] then ({ next with finished := true }, none)
    else match failedAt with
      | none => (next, some plaintext)
      | some taken =>
        ({ next with undelivered := plaintext.drop taken, finished := true },
          some (plaintext.take taken))

/-- `read_frame_optional` with the bytes of one more read. -/
def receive (snow : Snow) (thread : ProxyToClient) (bytes : Bytes) (failedAt : Option ℕ) :
    Option (ProxyToClient × Option Bytes) :=
  if thread.len.length < 2 then
    let next := { thread with len := thread.len ++ bytes, read := thread.read ++ bytes }
    if 2 < next.len.length then none
    else if next.len.length = 2 ∧ beNat next.len = 0 then some (next.deliver snow failedAt)
    else some (next, none)
  else
    let next := { thread with frame := thread.frame ++ bytes, read := thread.read ++ bytes }
    if beNat next.len < next.frame.length then none
    else if next.frame.length = beNat next.len then some (next.deliver snow failedAt)
    else some (next, none)

/-- One return of a socket; the output are the bytes written to the local socket. -/
def step (snow : Snow) : Step ProxyToClient DownEvent Bytes
  | thread, .read bytes failedAt =>
    if thread.finished then none
    else if bytes = [] then some ({ thread with finished := true }, none)
    else thread.receive snow bytes failedAt
  | thread, .failed =>
    if thread.finished then none else some ({ thread with finished := true }, none)

end ProxyToClient

/-- What the thread has read, after `count` whole frames of the sender. -/
structure Relaying (snow : Snow) (first : ℕ) (plaintexts : List Bytes) (obtained : Bytes)
    (thread : ProxyToClient) (count : ℕ) : Prop where
  number : thread.receivedCount = first + count
  received : Received snow first plaintexts thread.read count thread.len thread.frame
  part : thread.len.length < 2 ∧ thread.frame = [] ∨
    thread.len.length = 2 ∧ thread.frame.length < beNat thread.len
  delivered : obtained ++ thread.undelivered = (plaintexts.take count).flatten
  running : thread.finished = false → thread.undelivered = []

section Relaying

variable {plaintexts : List Bytes} {obtained : Bytes} {thread next : ProxyToClient} {count : ℕ}
  {emitted : Option Bytes}

/-- A whole frame is delivered. -/
theorem Relaying.deliver {failedAt : Option ℕ}
    (hnumber : thread.receivedCount = first + count)
    (hreceived : Received snow first plaintexts thread.read count thread.len thread.frame)
    (hlen : thread.len.length = 2) (hframe : thread.frame.length = beNat thread.len)
    (hdelivered : obtained = (plaintexts.take count).flatten)
    (hundelivered : thread.undelivered = [])
    (hsendable : ∀ plaintext ∈ plaintexts, Sendable plaintext)
    (hwire : thread.read <+: wire snow first plaintexts)
    (h : thread.deliver snow failedAt = (next, emitted)) :
    Relaying snow first plaintexts (obtained ++ emitted.toList.flatten) next (count + 1) := by
  obtain ⟨plaintext, hmessage, hnonempty, hflatten, hnext⟩ :=
    hreceived.whole hwire hsendable hlen hframe
  rw [ProxyToClient.deliver, hnumber, hmessage] at h
  dsimp only at h
  rw [if_neg hnonempty] at h
  cases failedAt with
  | none =>
    cases h
    refine ⟨Nat.add_assoc first count 1, hnext, .inl ⟨Nat.zero_lt_two, rfl⟩, ?_,
      fun _ ↦ hundelivered⟩
    rw [hflatten, ← hdelivered]
    simp [hundelivered]
  | some taken =>
    cases h
    refine ⟨Nat.add_assoc first count 1, hnext, .inl ⟨Nat.zero_lt_two, rfl⟩, ?_, (nomatch ·)⟩
    rw [hflatten, ← hdelivered]
    simp

theorem read_of_deliver {failedAt : Option ℕ} (h : thread.deliver snow failedAt = (next, emitted)) :
    next.read = thread.read := by
  unfold ProxyToClient.deliver at h
  split at h
  · cases h
    rfl
  · dsimp only at h
    split at h
    · cases h
      rfl
    · cases failedAt <;> cases h <;> rfl

theorem read_of_receive {bytes : Bytes} {failedAt : Option ℕ}
    (h : thread.receive snow bytes failedAt = some (next, emitted)) :
    next.read = thread.read ++ bytes := by
  unfold ProxyToClient.receive at h
  dsimp only at h
  split at h
  · split at h
    · cases h
    · split at h
      · exact read_of_deliver (Option.some.inj h)
      · cases h
        rfl
  · split at h
    · cases h
    · split at h
      · exact read_of_deliver (Option.some.inj h)
      · cases h
        rfl

/-- A read that adds to the length bytes. -/
theorem Relaying.lenGained {bytes : Bytes}
    (h : Relaying snow first plaintexts obtained thread count) (hlen : thread.len.length < 2)
    (hroom : (thread.len ++ bytes).length ≤ 2)
    (hsendable : ∀ plaintext ∈ plaintexts, Sendable plaintext)
    (hwire : thread.read ++ bytes <+: wire snow first plaintexts) :
    ((thread.len ++ bytes).length = 2 → 0 < beNat (thread.len ++ bytes)) ∧
      Relaying snow first plaintexts obtained
        { thread with len := thread.len ++ bytes, read := thread.read ++ bytes } count := by
  obtain ⟨-, hframe⟩ := h.part.resolve_right fun h ↦ by omega
  have hreceived : Received snow first plaintexts (thread.read ++ bytes) count
      (thread.len ++ bytes) thread.frame := by
    refine ⟨h.received.count_le, ?_⟩
    rw [h.received.bytes_eq, hframe]
    simp only [List.append_assoc, List.append_nil]
  have hheader (hwhole : (thread.len ++ bytes).length = 2) :
      0 < beNat (thread.len ++ bytes) := by
    obtain ⟨_, whole, -, -, hvalue, hpositive, -⟩ :=
      hreceived.header hwire hsendable hwhole (by rw [hframe]; exact Nat.zero_le _)
    rw [hvalue]
    exact hpositive
  refine ⟨hheader, h.number, hreceived, ?_, h.delivered, h.running⟩
  by_cases hwhole : (thread.len ++ bytes).length = 2
  · right
    rw [hframe]
    exact ⟨hwhole, hheader hwhole⟩
  · left
    exact ⟨lt_of_le_of_ne hroom hwhole, hframe⟩

/-- One read of the thread on the wire of a sender. -/
theorem Relaying.receive {bytes : Bytes} {failedAt : Option ℕ}
    (hrelaying : Relaying snow first plaintexts obtained thread count)
    (hrunning : thread.finished = false)
    (hsendable : ∀ plaintext ∈ plaintexts, Sendable plaintext)
    (hwire : next.read <+: wire snow first plaintexts)
    (h : thread.receive snow bytes failedAt = some (next, emitted)) :
    ∃ count', Relaying snow first plaintexts (obtained ++ emitted.toList.flatten) next count' := by
  rw [read_of_receive h] at hwire
  unfold ProxyToClient.receive at h
  dsimp only at h
  split at h
  · rename_i hlen
    split at h
    · cases h
    · rename_i hroom
      obtain ⟨hheader, hgained⟩ := hrelaying.lenGained hlen (not_lt.mp hroom) hsendable hwire
      split at h
      · rename_i hempty
        exact absurd (hheader hempty.1) (by omega)
      · cases h
        rw [Option.toList_none, List.flatten_nil, List.append_nil]
        exact ⟨count, hgained⟩
  · rename_i hlen
    obtain ⟨hwhole, -⟩ := hrelaying.part.resolve_left fun h ↦ hlen h.1
    have hundelivered := hrelaying.running hrunning
    have hdelivered := hrelaying.delivered
    rw [hundelivered, List.append_nil] at hdelivered
    have hreceived : Received snow first plaintexts (thread.read ++ bytes) count thread.len
        (thread.frame ++ bytes) := by
      refine ⟨hrelaying.received.count_le, ?_⟩
      rw [hrelaying.received.bytes_eq]
      simp only [List.append_assoc]
    split at h
    · cases h
    · rename_i hroom
      split at h
      · rename_i hframe
        refine ⟨count + 1, Relaying.deliver ?_ ?_ ?_ hframe hdelivered ?_ hsendable ?_
          (Option.some.inj h)⟩
        · exact hrelaying.number
        · exact hreceived
        · exact hwhole
        · exact hundelivered
        · exact hwire
      · rename_i hframe
        cases h
        rw [Option.toList_none, List.flatten_nil, List.append_nil]
        refine ⟨count, hrelaying.number, hreceived, .inr ⟨hwhole, ?_⟩, hrelaying.delivered,
          hrelaying.running⟩
        exact lt_of_le_of_ne (not_lt.mp hroom) hframe

/-- What the thread has written to the local socket comes from the frames it has read. -/
theorem obtains_of_run {events : List DownEvent} {given : List Bytes} {thread : ProxyToClient}
    (hrun : Run (ProxyToClient.step snow) unrestricted (.new first) events given thread) :
    Obtains snow first [] given.flatten thread.read thread.undelivered := by
  intro plaintexts hsendable hwire
  have hall : thread.read <+: wire snow first plaintexts →
      ∃ count, Relaying snow first plaintexts given.flatten thread count := by
    refine hrun.invariant (fun given thread ↦ thread.read <+: wire snow first plaintexts →
      ∃ count, Relaying snow first plaintexts given.flatten thread count) ?_ ?_
    · intro _
      exact ⟨0, rfl, ⟨Nat.zero_le _, rfl⟩, .inl ⟨Nat.zero_lt_two, rfl⟩, rfl, fun _ ↦ rfl⟩
    intro given thread event next emitted hbefore _ hstep hwire
    rw [List.flatten_append]
    have hended (hnext : next = { thread with finished := true }) (hnone : emitted = none) :
        ∃ count, Relaying snow first plaintexts (given.flatten ++ emitted.toList.flatten) next
          count := by
      subst hnext hnone
      obtain ⟨count, hrelaying⟩ := hbefore hwire
      refine ⟨count, hrelaying.number, hrelaying.received, hrelaying.part, ?_, (nomatch ·)⟩
      rw [Option.toList_none, List.flatten_nil, List.append_nil]
      exact hrelaying.delivered
    cases event with
    | read bytes failedAt =>
      simp only [ProxyToClient.step] at hstep
      split at hstep
      · cases hstep
      · rename_i hrunning
        split at hstep
        · cases hstep
          exact hended rfl rfl
        · obtain ⟨count, hrelaying⟩ := hbefore (by
            rw [read_of_receive hstep] at hwire
            exact (List.prefix_append thread.read bytes).trans hwire)
          exact hrelaying.receive (by simpa using hrunning) hsendable hwire hstep
    | failed =>
      simp only [ProxyToClient.step] at hstep
      split at hstep
      · cases hstep
      · cases hstep
        exact hended rfl rfl
  obtain ⟨count, hrelaying⟩ := hall hwire
  exact ⟨count, _, _, hrelaying.received, hrelaying.part, hrelaying.delivered⟩

end Relaying

end Ghostbro.Client
