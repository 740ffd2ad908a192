import AsioClientServer.Client.AsyncTcpClient
import AsioClientServer.Lib.Runs
import Mathlib.Data.List.Forall2
import Mathlib.Data.Nat.ModEq

/-!
# The ids of echo requests

The id of a request is a counter of 64 bits narrowed to the 32 bits of the field. The counter goes
up when `send` returns, also when the writer has refused the message, and stays when `send` throws.

* `ClientRun`: the client with all that happens to it; exceptions are caught outside.
* `request_ids_eq_iff`: two requests that were sent have the same id exactly when the number of
  commands between them is a multiple of 2^32.
* `request_ids_repeat`: a run that sends two requests with the same id.
-/

namespace Acs

open Wire

/-! ## The system -/

/-- A request the writer has taken, as it is put on the wire. Its number counts the commands that
have returned before it, refused ones included. -/
structure SentRequest where
  /-- The number of echo commands that had returned before it. -/
  number : Nat
  wireMessage : Bytes
  deriving DecidableEq, Repr

/-- The id in the encoded message of a frame; 0 when the field is not written. -/
def SentRequest.wireId (r : SentRequest) : Option UInt32 :=
  (decodeTokens (r.wireMessage.drop 10)).map fun ts =>
    match ts.find? (·.number = 1) with
    | some ⟨_, .varint v⟩ => v.toUInt32
    | _ => 0

/-- The client with the counter of its command handler, and what it has put on its socket. The
counter is the `static` variable in `handleCommand`, which all commands share. -/
structure ClientRun where
  client : AsyncTcpClient := {}
  /-- The counter of `EchoCommandHandler::handleCommand`. -/
  echoCommandId : UInt64 := 0
  /-- The number of echo commands that have returned. -/
  returned : Nat := 0
  sent : List SentRequest := []
  /-- The bytes that have been written. -/
  socket : Bytes := []
  /-- An assertion has failed: the program is gone. -/
  aborted : Bool := false
  deriving DecidableEq, Repr

/-- What the user, the server and the socket do. They come in any order: nothing in the client waits
for an answer before the next command. -/
inductive ClientRun.Event where
  | connected (error : Option Asio.ErrorCode)
  /-- The command loop reads a line. -/
  | command (line : Bytes)
  | read (event : ReadEvent)
  | transfer (i n : Nat)
  | written (i : Nat)
  | writeError (i : Nat) (e : Asio.ErrorCode)
  deriving DecidableEq, Repr

namespace ClientRun

/-- An echo command is entered. Whether the writer takes its request is read off the writer before
the command. -/
def enter (s : ClientRun) (text : Bytes) : ClientRun :=
  let handled := EchoCommandHandler.handleCommand text s.client s.echoCommandId
  let s' := { s with client := handled.2.1, echoCommandId := handled.2.2 }
  match handled.1 with
  | some f => { s' with aborted := f.aborts }
  | none =>
    { s' with
      returned := s.returned + 1
      -- the writer takes the message when it is not writing
      sent := if s.client.writer.writeInProgress then s.sent
        else s.sent ++ [⟨s.returned, handled.2.1.writer.writeBuffer⟩] }

/-- The client with its writer changed. The requests that were sent are not affected. -/
def withWriter (s : ClientRun) (writer : AsyncWriter) : ClientRun :=
  { s with client := { s.client with writer } }

/-- One event. An exception that leaves a handler is caught outside, and the client goes on. An
assertion is not caught, and there is no next event then. -/
def step (s : ClientRun) (event : Event) : Option ClientRun :=
  if s.aborted then none
  else
    match event with
    | .connected error =>
      let connected := s.client.handleConnect error
      some { s with client := connected.2, aborted := connected.1.any Failure.aborts }
    | .command line => some ((dispatchCommand line).elim s s.enter)
    | .read event =>
      (s.client.onRead event).map fun out =>
        { s with
          client := out.2
          aborted := match out.1 with
            | .error f => f.aborts
            | .ok _ => false }
    | .transfer i n =>
      (Asio.transfer s.client.writer.writeBuffer s.client.writer.outstanding i n).map fun t =>
        { s.withWriter { s.client.writer with outstanding := t.2 } with
          socket := s.socket ++ t.1 }
    | .written i =>
      (Asio.finish s.client.writer.outstanding i).map fun outstanding =>
        s.withWriter ({ s.client.writer with outstanding }.handleWriteFinished none).2
    | .writeError i e =>
      (Asio.abort s.client.writer.outstanding i).map fun outstanding =>
        s.withWriter ({ s.client.writer with outstanding }.handleWriteFinished (some e)).2

/-! ## What a command does -/

/-- The id on the wire is the id of the message: 0 is not written, and is read from nothing. -/
theorem wireId_frame {m : ChatMessage} (h : (MessageLite.chatMessage m).Framable)
    (hu : m.unknownFields = []) (number : Nat) :
    SentRequest.wireId ⟨number, frame (.chatMessage m)⟩ = some m.id := by
  have hdrop : (frame (.chatMessage m)).drop 10 = encodeTokens m.tokens :=
    List.drop_left' h.prefix_length
  have hround : decodeTokens (encodeTokens m.tokens) = some m.tokens :=
    decodeTokens_encodeTokens (ChatMessage.tokens_wellFormed (by simp [hu])
      (m.text_length_le.trans h.2))
  rw [SentRequest.wireId, hdrop, hround, Option.map_some, ChatMessage.tokens, hu, List.append_nil]
  rcases eq_or_ne m.id 0 with hid | hid
  · -- no token has the number of the field
    rw [if_pos hid, hid, List.nil_append]
    rcases eq_or_ne m.text [] with htext | htext <;> rcases eq_or_ne m.type 0 with htype | htype <;>
      simp [htext, htype]
  · simp [hid]

/-- A request is never empty, for its type is set. -/
theorem echoMessage_size_pos (echoCommandId : UInt64) (text : Bytes) :
    0 < (MessageLite.chatMessage (EchoCommandHandler.echoMessage echoCommandId text)).byteSizeLong
    := by
  rw [echoMessage_size]
  omega

/-- A command either throws, or is encoded in a frame that the writer takes or refuses. The counter
goes up when the command returns, and only then. -/
theorem handleCommand_cases (client : AsyncTcpClient) (echoCommandId : UInt64) (text : Bytes) :
    (∃ f protocol, EchoCommandHandler.handleCommand text client echoCommandId
      = (some f, { client with protocol }, echoCommandId)) ∨
    ((MessageLite.chatMessage (EchoCommandHandler.echoMessage echoCommandId text)).Framable ∧
      ∃ protocol, EchoCommandHandler.handleCommand text client echoCommandId
        = (none,
            { client with
              protocol
              writer := client.writer.writeMove
                (frame (.chatMessage (EchoCommandHandler.echoMessage echoCommandId text))) },
            echoCommandId + 1)) := by
  rcases Nat.lt_or_ge maxLength (MessageLite.chatMessage
      (EchoCommandHandler.echoMessage echoCommandId text)).byteSizeLong with hlong | hle
  · -- no message is encoded that is larger than 2 GiB
    left
    obtain ⟨f, hser⟩ := client.protocol.serialize_long hlong
    simp only [EchoCommandHandler.handleCommand, AsyncTcpClient.send, hser]
    exact ⟨_, _, rfl⟩
  · right
    have h : (MessageLite.chatMessage
        (EchoCommandHandler.echoMessage echoCommandId text)).Framable :=
      ⟨echoMessage_size_pos echoCommandId text, hle⟩
    simp only [EchoCommandHandler.handleCommand, client.send_eq h]
    exact ⟨h, _, rfl⟩

/-! ## The invariant -/

/-- The counter has gone up once for every command that has returned. Of every request, in the
order in which they were sent, the stream has as much as has been written. -/
structure Inv (s : ClientRun) : Prop where
  counter : s.echoCommandId = UInt64.ofNat s.returned
  number_lt : ∀ r ∈ s.sent, r.number < s.returned
  wireId_eq : ∀ r ∈ s.sent, r.wireId = some (UInt32.ofNat r.number)
  increasing : s.sent.Pairwise (·.number < ·.number)
  locked_iff : s.client.writer.writeInProgress = true ↔ s.client.writer.outstanding ≠ []
  written : ∃ pieces,
    Asio.Written s.client.writer.writeBuffer s.client.writer.outstanding pieces s.socket ∧
      List.Forall₂ (· <+: ·) pieces (s.sent.map (·.wireMessage))

variable {s s' : ClientRun}

/-- **What a command does to the invariant.** If it throws, the counter stays; if it returns, the
counter has gone up, and the request is on its way or has been refused. -/
theorem Inv.enter (h : Inv s) (text : Bytes) : Inv (s.enter text) := by
  obtain ⟨hcounter, hnumber, hid, hincreasing, hlocked, pieces, hwritten, hpieces⟩ := h
  rcases handleCommand_cases s.client s.echoCommandId text with
    ⟨f, protocol, heq⟩ | ⟨hframable, protocol, heq⟩
  · -- the command throws
    simp only [ClientRun.enter, heq]
    exact ⟨hcounter, hnumber, hid, hincreasing, hlocked, pieces, hwritten, hpieces⟩
  have hcounter' : s.echoCommandId + 1 = UInt64.ofNat (s.returned + 1) := by
    rw [hcounter, UInt64.ofNat_add]
    rfl
  have hnumber' : ∀ r ∈ s.sent, r.number < s.returned + 1 := fun r hr =>
    Nat.lt_succ_of_lt (hnumber r hr)
  cases hlock : s.client.writer.writeInProgress with
  | true =>
    -- refused: the counter goes up all the same
    simp only [ClientRun.enter, heq, hlock, if_true, AsyncWriter.writeMove,
      AsyncWriter.write_of_locked hlock]
    exact ⟨hcounter', hnumber', hid, hincreasing, hlocked, pieces, hwritten, hpieces⟩
  | false =>
    have hout := Asio.nil_of_unlocked hlocked hlock
    simp only [ClientRun.enter, heq, hlock, Bool.false_eq_true, if_false, AsyncWriter.writeMove,
      AsyncWriter.write_of_unlocked hlock, hout, List.nil_append]
    rw [hout] at hwritten
    refine ⟨hcounter', ?_, ?_, ?_, by simp, _, hwritten.start _, ?_⟩
    · intro r hr
      rcases List.mem_append.mp hr with hr | hr
      · exact hnumber' r hr
      · obtain rfl := List.mem_singleton.mp hr
        exact Nat.lt_succ_self _
    · intro r hr
      rcases List.mem_append.mp hr with hr | hr
      · exact hid r hr
      · obtain rfl := List.mem_singleton.mp hr
        rw [wireId_frame hframable rfl]
        simp only [EchoCommandHandler.echoMessage, chatMessage, hcounter, UInt64.toUInt32_ofNat']
    · rw [List.pairwise_append]
      refine ⟨hincreasing, List.pairwise_singleton _ _, fun r hr r' hr' => ?_⟩
      obtain rfl := List.mem_singleton.mp hr'
      exact hnumber r hr
    · rw [List.map_append]
      exact List.rel_append hpieces (.cons List.prefix_rfl .nil)

theorem writer_handleConnect (client : AsyncTcpClient) (error : Option Asio.ErrorCode) :
    (client.handleConnect error).2.writer = client.writer := by
  cases error <;> rfl

/-- Receiving does not touch the writer, and neither does displaying. -/
theorem writer_onRead {client client' : AsyncTcpClient} {event : ReadEvent}
    {shown : Except Failure (Option (UInt32 × Bytes))}
    (h : client.onRead event = some (shown, client')) : client'.writer = client.writer := by
  obtain ⟨res, -, hres⟩ := Option.map_eq_some_iff.mp h
  simp only [AsyncTcpClient.afterHandler] at hres
  split at hres
  · cases hres; rfl
  · cases hres; rfl
  · split at hres <;> cases hres <;> rfl

/-- What changes neither the writer nor the requests keeps the invariant. -/
theorem Inv.of_eq (h : Inv s) (hwriter : s'.client.writer = s.client.writer)
    (hcounter : s'.echoCommandId = s.echoCommandId) (hreturned : s'.returned = s.returned)
    (hsent : s'.sent = s.sent) (hsocket : s'.socket = s.socket) : Inv s' := by
  obtain ⟨h1, h2, h3, h4, h5, h6⟩ := h
  constructor
  · rw [hcounter, hreturned, h1]
  · rw [hsent, hreturned]
    exact h2
  · rw [hsent]
    exact h3
  · rw [hsent]
    exact h4
  · rw [hwriter]
    exact h5
  · rw [hwriter, hsent, hsocket]
    exact h6

/-- **Every event keeps the invariant.** The interesting event is a command (`Inv.enter`); the
writes move bytes of what has been sent, and the rest concerns the reader. -/
theorem inv_step {event : Event} (h : Inv s) (hstep : s.step event = some s') : Inv s' := by
  cases haborted : s.aborted with
  | true =>
    simp only [step, haborted, if_true] at hstep
    cases hstep
  | false =>
    simp only [step, haborted, Bool.false_eq_true, if_false] at hstep
    cases event with
    -- neither connecting nor receiving touches the writer
    | connected error =>
      obtain rfl := Option.some.inj hstep
      exact h.of_eq (writer_handleConnect s.client error) rfl rfl rfl rfl
    | command line =>
      simp only [Option.some.injEq] at hstep
      generalize dispatchCommand line = dispatched at hstep
      cases dispatched with
      | none =>
        obtain rfl : s = s' := hstep
        exact h
      | some text =>
        have hentered : s.enter text = s' := by simpa only [Option.elim_some] using hstep
        rw [← hentered]
        exact h.enter text
    | read event =>
      obtain ⟨⟨shown, client⟩, hread, rfl⟩ := Option.map_eq_some_iff.mp hstep
      exact h.of_eq (writer_onRead hread) rfl rfl rfl rfl
    -- the piece belongs to the message the writer has in its buffer, as no other is written
    -- meanwhile
    | transfer i n =>
      obtain ⟨⟨piece, outstanding⟩, ht, rfl⟩ := Option.map_eq_some_iff.mp hstep
      obtain ⟨hcounter, hnumber, hid, hincreasing, hlocked, pieces, hwritten, hpieces⟩ := h
      obtain ⟨hwritten', hne⟩ := hwritten.transfer ht
      exact ⟨hcounter, hnumber, hid, hincreasing,
        iff_of_true (hlocked.mpr (Asio.ne_nil_of_transfer ht)) hne, pieces, hwritten', hpieces⟩
    | written i =>
      obtain ⟨outstanding, hf, rfl⟩ := Option.map_eq_some_iff.mp hstep
      obtain ⟨hcounter, hnumber, hid, hincreasing, hlocked, pieces, hwritten, hpieces⟩ := h
      obtain ⟨rfl, hwritten'⟩ := hwritten.finish hf s.client.writer.writeBuffer
      exact ⟨hcounter, hnumber, hid, hincreasing,
        by simp [withWriter, AsyncWriter.handleWriteFinished], pieces, hwritten', hpieces⟩
    -- what was on the socket stays there as a part of its message, and the lock is free again
    | writeError i e =>
      obtain ⟨outstanding, ha, rfl⟩ := Option.map_eq_some_iff.mp hstep
      obtain ⟨hcounter, hnumber, hid, hincreasing, hlocked, pieces, hwritten, hpieces⟩ := h
      obtain ⟨rfl, hwritten'⟩ := hwritten.abort ha s.client.writer.writeBuffer hpieces
      have hwriter : ({ s.client.writer with outstanding := [] }.handleWriteFinished (some e)).2
          = { s.client.writer with writeInProgress := false, outstanding := [] } := by
        cases e <;> rfl
      rw [hwriter]
      exact ⟨hcounter, hnumber, hid, hincreasing, by simp [withWriter], hwritten'⟩

theorem inv_start : Inv {} :=
  ⟨rfl, by simp, by simp, .nil, by simp, [], .idle rfl rfl, .nil⟩

end ClientRun

/-! ## Ids -/

/-- Two numbers have the same low 32 bits exactly when 2^32 divides their difference. This is where
the width of the id field enters. -/
theorem uint32_ofNat_eq_iff {m n : Nat} (hle : m ≤ n) :
    UInt32.ofNat m = UInt32.ofNat n ↔ 2 ^ 32 ∣ n - m := by
  rw [← UInt32.toNat_inj, UInt32.toNat_ofNat', UInt32.toNat_ofNat']
  exact Nat.modEq_iff_dvd' hle

/-- **When two requests have the same id.** After any run of the client: the stream has of every
request that was sent, in this order, a prefix of its frame, and of two of them the ids are the
same exactly when the number of commands that have returned from the first to the second is a
multiple of 2^32. -/
theorem request_ids_eq_iff {es : List ClientRun.Event} {s : ClientRun}
    (hrun : Runs.run ClientRun.step {} es = some s) :
    (∃ pieces, List.Forall₂ (· <+: ·) pieces (s.sent.map (·.wireMessage)) ∧
      s.socket = pieces.flatten) ∧
    s.sent.Pairwise fun a b =>
      a.number < b.number ∧ b.number < s.returned ∧
      ∃ idA idB, a.wireId = some idA ∧ b.wireId = some idB ∧
        (idA = idB ↔ 2 ^ 32 ∣ b.number - a.number) := by
  have h : ClientRun.Inv s :=
    Runs.run_invariant (fun _ _ _ h hs => ClientRun.inv_step h hs) ClientRun.inv_start hrun
  constructor
  · obtain ⟨started, hwritten, hstarted⟩ := h.written
    cases hwritten with
    | idle _ hsocket => exact ⟨started, hstarted, hsocket⟩
    | @writing done transferred hwrites hle hdone hsocket =>
      subst hdone
      refine ⟨_, Asio.forall₂_prefix_last (List.take_prefix transferred _) hstarted, ?_⟩
      rw [hsocket, List.flatten_append, List.flatten_singleton]
  · refine h.increasing.imp_of_mem fun {a b} ha hb hlt => ?_
    exact ⟨hlt, h.number_lt b hb, _, _, h.wireId_eq a ha, h.wireId_eq b hb,
      uint32_ofNat_eq_iff hlt.le⟩

/-- A request, one that is refused, and one after it. -/
theorem request_ids_eq_iff_two :
    let line : Bytes := echoCmdPrefix ++ [32, 97]
    let events : List ClientRun.Event := [.connected none, .command line, .command line,
      .transfer 0 15, .written 0, .command line]
    ∃ s, Runs.run ClientRun.step {} events = some s ∧
      s.sent.map (fun r => (r.number, r.wireId)) = [(0, some 0), (2, some 2)] ∧
      s.sent.Pairwise fun a b => a.wireId = b.wireId → 2 ^ 32 ∣ b.number - a.number := by
  intro line events
  have hresult : (Runs.run ClientRun.step {} events).map
      (fun s => s.sent.map fun r => (r.number, r.wireId)) = some [(0, some 0), (2, some 2)] := by
    decide +kernel
  obtain ⟨s, hrun, hsent⟩ := Option.map_eq_some_iff.mp hresult
  refine ⟨s, hrun, hsent, (request_ids_eq_iff hrun).2.imp ?_⟩
  rintro a b ⟨-, -, idA, idB, hA, hB, hiff⟩ heq
  rw [hA, hB] at heq
  exact hiff.mp (Option.some.inj heq)

/-! ## A run with two requests of one id -/

namespace ClientRun

/-- After a command whose frame is sent. -/
def taken (s : ClientRun) (text : Bytes) (protocol : Protocol) : ClientRun :=
  let wireMessage := frame (.chatMessage (EchoCommandHandler.echoMessage s.echoCommandId text))
  { s with
    client := { s.client with
      protocol
      writer := ⟨wireMessage, true, [⟨wireMessage.length, 0⟩]⟩ }
    echoCommandId := s.echoCommandId + 1
    returned := s.returned + 1
    sent := s.sent ++ [⟨s.returned, wireMessage⟩] }

/-- After `n` commands that are refused: the counter has gone up all the same. -/
def refused (s : ClientRun) (n : Nat) (protocol : Protocol) : ClientRun :=
  { s with
    client := { s.client with protocol }
    echoCommandId := s.echoCommandId + UInt64.ofNat n
    returned := s.returned + n }

/-- After the message in the buffer has been written. -/
def wrote (s : ClientRun) : ClientRun :=
  { s with
    client := { s.client with writer := ⟨s.client.writer.writeBuffer, false, []⟩ }
    socket := s.socket ++ s.client.writer.writeBuffer }

variable {s : ClientRun}

section Command

variable {line text : Bytes} (hdispatch : dispatchCommand line = some text)
  (hlen : text.length < 2 ^ 14)

include hdispatch hlen

/-- A command that finds the writer idle puts the frame of its request into the buffer. The request
has the counter's value, cut to 32 bits. -/
theorem step_taken (haborted : s.aborted = false) (hlock : s.client.writer.writeInProgress = false)
    (hout : s.client.writer.outstanding = []) :
    ∃ protocol, s.step (.command line) = some (s.taken text protocol) := by
  have hframable := echoMessage_framable s.echoCommandId hlen
  refine ⟨{ s.client.protocol with
    serFramePrefixCache := framePrefixOf
      (.chatMessage (EchoCommandHandler.echoMessage s.echoCommandId text)) }, ?_⟩
  simp only [step, haborted, Bool.false_eq_true, if_false, hdispatch, Option.elim_some, enter,
    EchoCommandHandler.handleCommand, s.client.send_eq hframable, hlock, AsyncWriter.writeMove,
    AsyncWriter.write_of_unlocked hlock, hout, List.nil_append, taken]

/-- A command that finds the writer at work is refused, and counted. The lock of the writer decides,
and the counter has gone up by then. -/
theorem step_refused (haborted : s.aborted = false)
    (hlock : s.client.writer.writeInProgress = true) :
    ∃ protocol, s.step (.command line) = some (s.refused 1 protocol) := by
  have hframable := echoMessage_framable s.echoCommandId hlen
  refine ⟨{ s.client.protocol with
    serFramePrefixCache := framePrefixOf
      (.chatMessage (EchoCommandHandler.echoMessage s.echoCommandId text)) }, ?_⟩
  simp only [step, haborted, Bool.false_eq_true, if_false, hdispatch, Option.elim_some, enter,
    EchoCommandHandler.handleCommand, s.client.send_eq hframable, hlock, if_true,
    AsyncWriter.writeMove, AsyncWriter.write_of_locked hlock, refused]
  rfl

/-- Any number of commands while the writer writes. Induction on their number. -/
theorem run_refused (n : Nat) (haborted : s.aborted = false)
    (hlock : s.client.writer.writeInProgress = true) :
    ∃ protocol, Runs.run step s (List.replicate n (.command line))
      = some (s.refused n protocol) := by
  induction n generalizing s with
  | zero => exact ⟨s.client.protocol, by simp [refused]⟩
  | succ n ih =>
    obtain ⟨protocol, hstep⟩ := step_refused hdispatch hlen haborted hlock
    obtain ⟨protocol', hrun⟩ := ih (s := s.refused 1 protocol) haborted hlock
    have hcounter : s.echoCommandId + UInt64.ofNat 1 + UInt64.ofNat n
        = s.echoCommandId + UInt64.ofNat (n + 1) := by
      rw [UInt64.add_assoc, ← UInt64.ofNat_add, Nat.add_comm]
    have hrefused : (s.refused 1 protocol).refused n protocol' = s.refused (n + 1) protocol' := by
      simp only [refused, hcounter, Nat.add_assoc, Nat.add_comm 1]
    refine ⟨protocol', ?_⟩
    rw [List.replicate_succ, Runs.run_cons_of_step _ hstep, hrun, hrefused]

end Command

/-- The message in the buffer is written in one transfer. -/
theorem run_wrote {n : Nat} (hn : s.client.writer.writeBuffer.length = n) (hpos : 0 < n)
    (haborted : s.aborted = false)
    (hout : s.client.writer.outstanding = [⟨s.client.writer.writeBuffer.length, 0⟩]) :
    Runs.run step s [.transfer 0 n, .written 0] = some s.wrote := by
  have htransfer : Asio.transfer s.client.writer.writeBuffer [⟨n, 0⟩] 0 n
      = some (s.client.writer.writeBuffer, [⟨n, n⟩]) := by
    simp [Asio.transfer, Asio.WriteOp.CanTransfer, Asio.WriteOp.piece, Asio.WriteOp.advance, hpos,
      List.take_of_length_le hn.le]
  have hfinish : Asio.finish [⟨n, n⟩] 0 = some [] := by
    simp [Asio.finish, Asio.WriteOp.Done]
  simp only [Runs.run, step, haborted, Bool.false_eq_true, if_false, hout, hn, htransfer,
    Option.map_some, Option.bind_some, withWriter, hfinish, AsyncWriter.handleWriteFinished, wrote]

/-- The frame of a request with the id 0. It is the frame of the first command, and of every one
that comes 2^32 commands after it. -/
def firstFrame (text : Bytes) : Bytes :=
  frame (.chatMessage (EchoCommandHandler.echoMessage 0 text))

/-- Every counter that is narrowed to 0 gives the same frame. -/
theorem frame_of_toUInt32 {echoCommandId : UInt64} (h : echoCommandId.toUInt32 = 0) (text : Bytes) :
    frame (.chatMessage (EchoCommandHandler.echoMessage echoCommandId text)) = firstFrame text := by
  have hzero : (0 : UInt64).toUInt32 = 0 := rfl
  simp only [firstFrame, EchoCommandHandler.echoMessage, h, hzero]

/-- `>echo a` and `>echo b`, with `>echo a` entered `n` times before the first one is written. Only
the two are sent. -/
def twoRequests (n : Nat) : List Event :=
  .connected none :: .command (echoCmdPrefix ++ [32, 97]) ::
    (List.replicate n (.command (echoCmdPrefix ++ [32, 97])) ++
      ([.transfer 0 15, .written 0] ++
        (.command (echoCmdPrefix ++ [32, 98]) :: [.transfer 0 15, .written 0])))

/-- Both requests have the id 0, when the counter has come round in between. The run is given in
closed form, since its length is beyond what could be evaluated. -/
theorem run_twoRequests {n : Nat} (hn : 2 ^ 32 ∣ n + 1) :
    ∃ s, Runs.run step {} (twoRequests n) = some s ∧
      s.sent = [⟨0, firstFrame [97]⟩, ⟨n + 1, firstFrame [98]⟩] ∧
      s.socket = firstFrame [97] ++ firstFrame [98] := by
  have hdispatchA : dispatchCommand (echoCmdPrefix ++ [32, 97]) = some [97] := by decide
  have hdispatchB : dispatchCommand (echoCmdPrefix ++ [32, 98]) = some [98] := by decide
  have hlengthA : (firstFrame [97]).length = 15 := by decide +kernel
  have hlengthB : (firstFrame [98]).length = 15 := by decide +kernel
  -- the counter is back at 0 in the 32 bits of the field
  have hcounter : 0 + 1 + UInt64.ofNat n = UInt64.ofNat (n + 1) := by
    rw [UInt64.ofNat_add, UInt64.add_comm (UInt64.ofNat n)]
    rfl
  have hid : (0 + 1 + UInt64.ofNat n).toUInt32 = 0 := by
    rw [hcounter, UInt64.toUInt32_ofNat']
    exact ((uint32_ofNat_eq_iff (Nat.zero_le _)).mpr hn).symm
  -- the run in five parts: connect, a first command, `n` refused ones, its write, a last command
  let s₀ : ClientRun := { client := (({} : AsyncTcpClient).handleConnect none).2 }
  have hconnected : step {} (.connected none) = some s₀ := rfl
  obtain ⟨p₁, hA⟩ := step_taken (s := s₀) hdispatchA (by decide) rfl rfl rfl
  let s₁ := s₀.taken [97] p₁
  obtain ⟨p₂, hrefused⟩ := run_refused (s := s₁) hdispatchA (by decide) n rfl rfl
  let s₂ := s₁.refused n p₂
  have hwroteA : Runs.run step s₂ _ = some s₂.wrote := run_wrote hlengthA (by decide) rfl rfl
  obtain ⟨p₃, hB⟩ := step_taken (s := s₂.wrote) hdispatchB (by decide) rfl rfl rfl
  let s₃ := s₂.wrote.taken [98] p₃
  have hframeB : s₃.client.writer.writeBuffer = firstFrame [98] := frame_of_toUInt32 hid [98]
  have hlength : s₃.client.writer.writeBuffer.length = 15 := by rw [hframeB, hlengthB]
  have hwroteB : Runs.run step s₃ _ = some s₃.wrote := run_wrote hlength (by decide) rfl rfl
  refine ⟨s₃.wrote, ?_, ?_, ?_⟩
  · rw [twoRequests, Runs.run_cons_of_step _ hconnected, Runs.run_cons_of_step _ hA,
      Runs.run_append_of_run _ hrefused, Runs.run_append_of_run _ hwroteA,
      Runs.run_cons_of_step _ hB, hwroteB]
  · show [SentRequest.mk 0 (firstFrame [97]),
      SentRequest.mk (0 + 1 + n) s₃.client.writer.writeBuffer] = _
    rw [hframeB, Nat.zero_add, Nat.add_comm 1]
  · show [] ++ firstFrame [97] ++ s₃.client.writer.writeBuffer = _
    rw [hframeB, List.nil_append]

end ClientRun

/-- 2^32 - 1 commands are refused while the first request is written. The second request has its
id. -/
theorem request_ids_repeat :
    ∃ s a b, Runs.run ClientRun.step {} (ClientRun.twoRequests (2 ^ 32 - 1)) = some s ∧
      s.sent = [a, b] ∧ a.wireMessage ≠ b.wireMessage ∧
      a.wireId = some 0 ∧ b.wireId = some 0 ∧ s.socket = a.wireMessage ++ b.wireMessage := by
  obtain ⟨s, hrun, hsent, hsocket⟩ := ClientRun.run_twoRequests (n := 2 ^ 32 - 1) ⟨1, rfl⟩
  have hframable : ∀ text : Bytes, text.length < 2 ^ 14 → (MessageLite.chatMessage
      (EchoCommandHandler.echoMessage 0 text)).Framable :=
    fun text hlen => echoMessage_framable 0 hlen
  refine ⟨s, _, _, hrun, hsent, by decide +kernel, ?_, ?_, hsocket⟩
  · exact ClientRun.wireId_frame (hframable [97] (by decide)) rfl 0
  · exact ClientRun.wireId_frame (hframable [98] (by decide)) rfl _

end Acs
