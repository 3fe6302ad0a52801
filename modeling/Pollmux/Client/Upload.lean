import Pollmux.Client.Connect
import Pollmux.Frame
import Pollmux.Kit.Machine
import Pollmux.Reliable.Endpoint

/-!
# Framed uploads and the server's bounds

Four loops upload in frames: `feedSendStream` and `writeLoop` of the plain
connections, which read their pipe directly, and `feedSendStream` and
`wsWriteLoop` of the resumable one, which read through the reliable layer. Two
carriers take the frames to the server: the body of a chunked request, read by
`newFrameReader` with `MaxSendBytes`, and a WebSocket, read under a limit of
`MaxSendBytes + 1 + seqHeaderLen`.

A loop fills a buffer of `PollBufferSize` bytes and the server bounds a frame by
`MaxSendBytes`. Nothing ties the two knobs together, so what a loop sends fits
exactly when the configuration happens to leave room for a full buffer.
-/

namespace Pollmux

open Kit

/-- What a loop sends, before it is encoded for its carrier. -/
inductive Item
  | data (bytes : Bytes)
  | seqData (off : Nat) (bytes : Bytes)
  | ack (off : Nat)
  | heartbeat
  /-- The end of a leg. -/
  | finish
  deriving DecidableEq, Repr

/-- What reaches the server: a frame in a body, or a WebSocket message. -/
inductive Message
  | frame (w : Written)
  | binary (bytes : Bytes)
  deriving DecidableEq, Repr

/-- How a carrier encodes an item. A WebSocket has no frame for the end of a leg. -/
def Carrier.encode : Carrier → Item → Option Message
  | .stream, .data bytes => some (.frame (.frame frameData bytes))
  | .stream, .seqData off bytes => some (.frame (.seq off bytes))
  | .stream, .ack off => some (.frame (.frame frameAck (encodeOffset off)))
  | .stream, .heartbeat => some (.frame (.frame frameHeartbeat []))
  | .stream, .finish => some (.frame (.frame frameEnd []))
  | .webSocket, .data bytes => some (.binary (wsEncode frameData bytes))
  | .webSocket, .seqData off bytes => some (.binary (wsEncodeSeq off bytes))
  | .webSocket, .ack off => some (.binary (wsEncode frameAck (encodeOffset off)))
  | .webSocket, .heartbeat => some (.binary (wsEncode frameHeartbeat []))
  | .webSocket, .finish => none

/-- What the code relies on in the WebSocket library: after `SetReadLimit(limit)` a `Read` returns
the messages of at most `limit` bytes. Of a negative limit it is only asked that a message no longer
than one that is read is read. -/
structure MessageReader where
  reads : Int → Nat → Prop
  reads_iff {limit : Int} {n : Nat} (h : 0 ≤ limit) : reads limit n ↔ (n : Int) ≤ limit
  shorter {limit : Int} {n k : Nat} (hk : k ≤ n) (h : reads limit n) : reads limit k

/-- Within a limit, or past it if the limit is negative. -/
theorem MessageReader.reads_cases (ws : MessageReader) (limit : Int) (n : Nat) :
    ws.reads limit n ↔ (n : Int) ≤ limit ∨ limit < 0 ∧ ws.reads limit n := by
  by_cases h : 0 ≤ limit
  · rw [ws.reads_iff h]
    omega
  · have hneg : limit < 0 := Int.not_le.mp h
    constructor
    · exact fun hr => .inr ⟨hneg, hr⟩
    · rintro (hle | ⟨-, hr⟩)
      · omega
      · exact hr

namespace ServerConfig

/-- The argument of `SetReadLimit` in `WebSocketHandler`. -/
def readLimit (cfg : ServerConfig) : Int := int64 (cfg.maxSendBytes + 1 + seqHeaderLen)

/-- The server's reader takes the message. -/
def Takes (ws : MessageReader) (cfg : ServerConfig) : Message → Prop
  | .frame w => w.Fits cfg.maxSendBytes
  | .binary bytes => ws.reads cfg.readLimit bytes.length

end ServerConfig

/-! ## The loops over a pipe -/

/-- A plain connection's loop: its pipe, the `ReadAvailable` call that sleeps, whether it has
returned, and what it has sent. -/
structure PlainFeed where
  writePipe : BufferedPipe := {}
  wait : Option Parked := none
  returned : Bool := false
  sent : List Item := []
  deriving DecidableEq, Repr

/-- One step of the loop or of those around it. -/
inductive PlainEvent
  | write (data : Bytes)
  | close
  /-- The loop calls `ReadAvailable`. -/
  | read
  /-- The sleeping call wakes up. -/
  | wake (fired : Bool)
  /-- A leg has reached `StreamMaxDuration` and the next one begins. -/
  | rollOver
  deriving DecidableEq, Repr

/-- What the loop sends for what it read. -/
def ReadResult.item : ReadResult → Item
  | .data bytes => if bytes = [] then .heartbeat else .data bytes
  | .timeout | .interrupted => .heartbeat
  | .eof => .finish

namespace PlainFeed

/-- The loop goes on from where its `ReadAvailable` call has come to. -/
def after (s : PlainFeed) : ReadState × BufferedPipe → PlainFeed
  | (.parked wait, p) => { s with writePipe := p, wait := some wait }
  | (.returned res, p) =>
    { writePipe := p
      wait := none
      returned := s.returned || res == .eof
      sent := s.sent ++ [res.item] }

/-- One step of a loop over `carrier` with a buffer of `maxFrame` bytes. -/
def step (carrier : Carrier) (maxFrame : Nat) (s : PlainFeed) : PlainEvent → Option PlainFeed
  | .write data =>
    match s.writePipe.write data with
    | .error _ => some s
    | .ok p => some { s with writePipe := p }
  | .close => some { s with writePipe := s.writePipe.close }
  | .read =>
    if s.wait = none ∧ s.returned = false then some (s.after (s.writePipe.enter maxFrame)) else none
  | .wake fired =>
    s.wait.map fun wait =>
      s.after (s.writePipe.resume maxFrame (if fired then wait.fire else wait))
  | .rollOver =>
    if carrier = .stream ∧ s.wait = none ∧ s.returned = false then
      some { s with sent := s.sent ++ [.finish] }
    else none

/-- A new connection. -/
def machine (carrier : Carrier) (maxFrame : Nat) : Machine PlainFeed PlainEvent where
  init := {}
  step := step carrier maxFrame

end PlainFeed

/-! ## The loops over the reliable layer -/

/-- A resumable connection's loop: its endpoint and what it has sent on all its legs. -/
structure NumberedFeed where
  ep : Endpoint
  sent : List Item := []
  deriving DecidableEq, Repr

/-- One step of the loop or of those around it. -/
inductive NumberedEvent
  /-- A region of any operation on the endpoint; the loop's own `nextOut` call and the `resetAck`
  of a new leg are among them. -/
  | op (op : EndOp)
  /-- The loop sends what is due after its `nextOut` call has returned. -/
  | emit
  /-- The leg is torn down instead. -/
  | leave
  /-- A leg has reached `StreamMaxDuration`. -/
  | rollOver
  deriving DecidableEq, Repr

/-- `nextOut` is only called with the loop's buffer. -/
def EndOp.CallsWith (maxFrame : Nat) : EndOp → Prop
  | .nextOut dst => dst = maxFrame
  | _ => True

instance (maxFrame : Nat) : ∀ op : EndOp, Decidable (op.CallsWith maxFrame)
  | .nextOut dst => inferInstanceAs (Decidable (dst = maxFrame))
  | .write _ | .read _ | .closeOut | .closeIn | .interruptOut | .nudge | .advance _ | .control _
  | .hear _ _ => inferInstanceAs (Decidable True)

namespace NumberedFeed

/-- What the loop sends for what `nextOut` answered and the ack that is due. -/
def items (res : NextResult) (due : Option Nat) : List Item :=
  due.toList.map .ack ++
    if res.bytes ≠ [] then [.seqData res.off res.bytes]
    else if res.err = some .pipeInterrupted then []
    else [.heartbeat]

/-- One step of a loop over `carrier` with a buffer of `maxFrame` bytes. -/
def step (carrier : Carrier) (maxFrame : Nat) (s : NumberedFeed) :
    NumberedEvent → Option NumberedFeed
  | .op op =>
    if op.CallsWith maxFrame then (s.ep.perform op).map fun ep => { s with ep := ep } else none
  | .emit =>
    s.ep.collect.map fun (res, ep) =>
      if res.err = some .eof then { ep := ep, sent := s.sent ++ [.finish] }
      else
        { ep := { ep with rl := ep.rl.takeAck.2 }
          sent := s.sent ++ items res ep.rl.takeAck.1 }
  | .leave => s.ep.collect.map fun (_, ep) => { s with ep := ep }
  | .rollOver =>
    if carrier = .stream ∧ s.ep.call = none then some { s with sent := s.sent ++ [.finish] }
    else none

/-- A new connection. -/
def machine (carrier : Carrier) (maxFrame : Nat) (maxReplay : Int) (eagerAck : Bool) :
    Machine NumberedFeed NumberedEvent where
  init := { ep := .new maxReplay eagerAck }
  step := step carrier maxFrame

end NumberedFeed

/-! ## The four of them -/

/-- `feedSendStream` of `httpConn`. -/
def HttpConn.feedSendStream (streamMaxFrame : Nat) : Machine PlainFeed PlainEvent :=
  PlainFeed.machine .stream streamMaxFrame

/-- `writeLoop` of `wsConn`. -/
def WsConn.writeLoop (maxFrame : Nat) : Machine PlainFeed PlainEvent :=
  PlainFeed.machine .webSocket maxFrame

/-- `feedSendStream` of `resumableConn`. -/
def ResumableConn.feedSendStream (maxFrame : Nat) (maxReplay : Int) (eagerAck : Bool) :
    Machine NumberedFeed NumberedEvent :=
  NumberedFeed.machine .stream maxFrame maxReplay eagerAck

/-- `wsWriteLoop` of `resumableConn`. -/
def ResumableConn.wsWriteLoop (maxFrame : Nat) (maxReplay : Int) (eagerAck : Bool) :
    Machine NumberedFeed NumberedEvent :=
  NumberedFeed.machine .webSocket maxFrame maxReplay eagerAck

/-- The loop sends the item in some run, under some writes of the application. -/
def FrameUpload.Sends (loop : FrameUpload) (item : Item) : Prop :=
  let n := loop.maxFrame.toNat
  match loop.carrier, loop.resumable with
  | .stream, false => ∃ s, (HttpConn.feedSendStream n).Reachable s ∧ item ∈ s.sent
  | .webSocket, false => ∃ s, (WsConn.writeLoop n).Reachable s ∧ item ∈ s.sent
  | .stream, true =>
    ∃ s, (ResumableConn.feedSendStream n loop.maxReplay loop.eagerAck).Reachable s ∧ item ∈ s.sent
  | .webSocket, true =>
    ∃ s, (ResumableConn.wsWriteLoop n loop.maxReplay loop.eagerAck).Reachable s ∧ item ∈ s.sent

/-- What a WebSocket message has before its data: the type byte, and the offset of a numbered
one. -/
def wsHeaderLen (resumable : Bool) : Nat := if resumable then 1 + seqHeaderLen else 1

/-- The configuration leaves room for a full buffer on the carrier, of a resumable connection or
not. Numbered frames and WebSocket messages have an allowance on top, which the server adds in an
int64; where that makes a WebSocket's limit negative the library decides. -/
def Carrier.Room (ws : MessageReader) (cfg : ServerConfig) : Carrier → Bool → Prop
  | .stream, false => cfg.pollBufferSize ≤ cfg.maxSendBytes ∧ cfg.pollBufferSize < 2 ^ 32
  | .stream, true =>
    cfg.pollBufferSize + seqHeaderLen ≤ int64 (cfg.maxSendBytes + seqHeaderLen) ∧
      cfg.pollBufferSize + seqHeaderLen < 2 ^ 32
  | .webSocket, resumable =>
    cfg.pollBufferSize + wsHeaderLen resumable ≤ cfg.readLimit ∨
      cfg.readLimit < 0 ∧
        ws.reads cfg.readLimit (cfg.pollBufferSize.toNat + wsHeaderLen resumable)

/-! ## What the loops send -/

/-- A new pipe that was written one full buffer hands it out at once. -/
theorem enter_whole {bytes : Bytes} (h : bytes ≠ []) :
    ({ buf := bytes, hiWater := bytes.length } : BufferedPipe).enter bytes.length =
      (.returned (.data bytes), { hiWater := bytes.length }) := by
  rw [BufferedPipe.enter_of_full rfl h (Nat.le_refl _), BufferedPipe.copyOut, List.take_length,
    List.drop_length]

/-- An item of a loop with a buffer of `maxFrame` bytes, resumable or not. -/
def Item.From (resumable : Bool) (maxFrame : Nat) : Item → Prop
  | .data bytes => resumable = false ∧ bytes.length ≤ maxFrame
  | .seqData _ bytes => resumable = true ∧ bytes.length ≤ maxFrame
  | .ack _ => resumable = true
  | .heartbeat | .finish => True

namespace PlainFeed

variable {carrier : Carrier} {maxFrame : Nat} {s s' : PlainFeed}

/-- A read of at most `maxFrame` bytes adds one item of at most as many. -/
theorem after_from (h : ∀ item ∈ s.sent, item.From false maxFrame) {p : BufferedPipe}
    {st : ReadState} {p' : BufferedPipe} (hr : p.Reads maxFrame st p') :
    ∀ item ∈ (s.after (st, p')).sent, item.From false maxFrame := by
  cases st with
  | parked wait => exact h
  | returned res =>
    intro item hmem
    rcases List.mem_append.mp hmem with hold | hnew
    · exact h item hold
    · rw [List.mem_singleton.mp hnew]
      cases res with
      | data bytes =>
        simp only [ReadResult.item]
        split
        next => trivial
        next => exact ⟨rfl, hr.atMost⟩
      | timeout | interrupted | eof => trivial

theorem sent_from (h : (machine carrier maxFrame).Reachable s) :
    ∀ item ∈ s.sent, item.From false maxFrame := by
  refine h.invariant (P := fun s => ∀ item ∈ s.sent, item.From false maxFrame)
    (fun _ hmem => nomatch hmem) ?_
  intro s ev s' _ ih _ hs
  cases ev with
  | write data =>
    simp only [machine, step] at hs
    split at hs
    next => cases hs; exact ih
    next => cases hs; exact ih
  | close => cases hs; exact ih
  | read =>
    simp only [machine, step] at hs
    split at hs
    next => cases hs; exact after_from ih (s.writePipe.enter_reads maxFrame)
    next => cases hs
  | wake fired =>
    obtain ⟨wait, -, rfl⟩ := Option.map_eq_some_iff.mp hs
    exact after_from ih (s.writePipe.resume_reads maxFrame _)
  | rollOver =>
    simp only [machine, step] at hs
    split at hs
    next =>
      cases hs
      intro item hmem
      rcases List.mem_append.mp hmem with hold | hnew
      · exact ih item hold
      · rw [List.mem_singleton.mp hnew]
        trivial
    next => cases hs

/-- A write of a full buffer goes out as one item. -/
theorem sends_full (carrier : Carrier) {bytes : Bytes} (hpos : bytes ≠ []) :
    ∃ s, (machine carrier bytes.length).Reachable s ∧ Item.data bytes ∈ s.sent := by
  have henter := enter_whole hpos
  have hlen : 0 < bytes.length := List.length_pos_iff.mpr hpos
  have hrun : (machine carrier bytes.length).run {} [.write bytes, .read] =
      some { writePipe := { hiWater := bytes.length }, sent := [.data bytes] } := by
    simp [Machine.run, machine, step, BufferedPipe.write, BufferedPipe.push, hlen, henter, after,
      ReadResult.item, hpos]
  exact ⟨_, Machine.Reachable.run .init hrun, List.mem_singleton_self _⟩

end PlainFeed

/-- A `nextOut` call with a buffer of `maxFrame` bytes. -/
def NextOut.Within (maxFrame : Nat) : NextOut → Prop
  | .entering dst | .reading dst _ => dst = maxFrame
  | .taken bytes => bytes.length ≤ maxFrame
  | .returned res => res.bytes.length ≤ maxFrame

/-- What a call makes of a read of at most `maxFrame` bytes. -/
theorem NextOut.ofRead_within {maxFrame : Nat} {p p' : BufferedPipe} {st : ReadState}
    (hr : p.Reads maxFrame st p') : (NextOut.ofRead maxFrame st).Within maxFrame := by
  cases st with
  | parked wait => exact rfl
  | returned res =>
    cases res with
    | data bytes =>
      simp only [NextOut.ofRead]
      split
      next => exact Nat.zero_le _
      next => exact hr.atMost
    | timeout | interrupted | eof => exact Nat.zero_le _

/-- The loop's call keeps to its buffer through every operation. -/
theorem Endpoint.perform_within {e e' : Endpoint} {op : EndOp} {maxFrame : Nat}
    (h : ∀ call, e.call = some call → call.Within maxFrame) (hop : op.CallsWith maxFrame)
    (hp : e.perform op = some e') : ∀ call, e'.call = some call → call.Within maxFrame := by
  cases performs hp with
  | aside => exact h
  | nextOut _ hstart =>
    cases hop
    intro call' hcall
    cases hcall
    simp only [Reliable.nextOutStart] at hstart
    split at hstart
    next =>
      obtain ⟨start, -, hstart⟩ := Option.bind_eq_some_iff.mp hstart
      obtain ⟨pending, -, hstart⟩ := Option.bind_eq_some_iff.mp hstart
      cases hstart
      exact List.length_take_le _ _
    next => cases hstart; exact rfl
  | @advance _ call _ _ _ hcall hadv =>
    intro c hc
    cases hc
    have hw := h call hcall
    cases call with
    | entering dst => cases hadv; cases hw; exact NextOut.ofRead_within (e.out.enter_reads _)
    | reading dst wait => cases hadv; cases hw; exact NextOut.ofRead_within (e.out.resume_reads _ _)
    | taken bytes => cases hadv; exact hw
    | returned res => cases hadv
  | control => exact h
  | hear => exact h

namespace NumberedFeed

variable {carrier : Carrier} {maxFrame : Nat} {maxReplay : Int} {eagerAck : Bool}
  {s s' : NumberedFeed}

/-- The call and everything sent keep to the buffer. -/
structure Within (maxFrame : Nat) (s : NumberedFeed) : Prop where
  call : ∀ call, s.ep.call = some call → call.Within maxFrame
  sent : ∀ item ∈ s.sent, item.From true maxFrame

theorem items_from {res : NextResult} (h : res.bytes.length ≤ maxFrame) (due : Option Nat) :
    ∀ item ∈ items res due, item.From true maxFrame := by
  intro item hmem
  rcases List.mem_append.mp hmem with hack | hrest
  · obtain ⟨off, -, rfl⟩ := List.mem_map.mp hack
    exact rfl
  · split at hrest
    next => rw [List.mem_singleton.mp hrest]; exact ⟨rfl, h⟩
    next =>
      split at hrest
      next => cases hrest
      next => rw [List.mem_singleton.mp hrest]; trivial

/-- What a call that is collected has returned. -/
theorem collect_within {e e' : Endpoint} {res : NextResult}
    (h : ∀ call, e.call = some call → call.Within maxFrame) (hc : e.collect = some (res, e')) :
    e'.call = none ∧ res.bytes.length ≤ maxFrame := by
  obtain ⟨hcall, rfl⟩ := Endpoint.collected hc
  exact ⟨rfl, h _ hcall⟩

theorem Within.step {ev : NumberedEvent} (h : Within maxFrame s)
    (hs : NumberedFeed.step carrier maxFrame s ev = some s') : Within maxFrame s' := by
  have append : ∀ {new : List Item}, (∀ item ∈ new, item.From true maxFrame) →
      ∀ item ∈ s.sent ++ new, item.From true maxFrame := by
    intro new hnew item hmem
    exact (List.mem_append.mp hmem).elim (h.sent item) (hnew item)
  have finish : ∀ item ∈ [Item.finish], item.From true maxFrame := by
    intro item hmem
    rw [List.mem_singleton.mp hmem]
    trivial
  cases ev with
  | op op =>
    simp only [NumberedFeed.step] at hs
    split at hs
    next hop =>
      obtain ⟨ep, hp, rfl⟩ := Option.map_eq_some_iff.mp hs
      exact ⟨Endpoint.perform_within h.call hop hp, h.sent⟩
    next => cases hs
  | emit =>
    obtain ⟨⟨res, ep⟩, hc, rfl⟩ := Option.map_eq_some_iff.mp hs
    obtain ⟨hnone, hlen⟩ := collect_within h.call hc
    dsimp only
    split
    next =>
      refine ⟨fun call hcall => ?_, append finish⟩
      rw [hnone] at hcall
      cases hcall
    next =>
      refine ⟨fun call hcall => ?_, append (items_from hlen _)⟩
      rw [hnone] at hcall
      cases hcall
  | leave =>
    obtain ⟨⟨res, ep⟩, hc, rfl⟩ := Option.map_eq_some_iff.mp hs
    obtain ⟨hnone, -⟩ := collect_within h.call hc
    refine ⟨fun call hcall => ?_, h.sent⟩
    rw [hnone] at hcall
    cases hcall
  | rollOver =>
    simp only [NumberedFeed.step] at hs
    split at hs
    next => cases hs; exact ⟨h.call, append finish⟩
    next => cases hs

theorem sent_from (h : (machine carrier maxFrame maxReplay eagerAck).Reachable s) :
    ∀ item ∈ s.sent, item.From true maxFrame := by
  have hinit : Within maxFrame { ep := .new maxReplay eagerAck } :=
    ⟨fun _ hcall => (nomatch hcall), fun _ hmem => (nomatch hmem)⟩
  exact (h.invariant (P := Within maxFrame) hinit fun _ _ _ _ ih _ hs => ih.step hs).sent

/-- A write of a full buffer goes out as one item, also if it overflows the replay buffer. -/
theorem sends_full (carrier : Carrier) (maxReplay : Int) (eagerAck : Bool) {bytes : Bytes}
    (hpos : bytes ≠ []) :
    ∃ s, (machine carrier bytes.length maxReplay eagerAck).Reachable s ∧
      Item.seqData 0 bytes ∈ s.sent := by
  have hlen : 0 < bytes.length := List.length_pos_iff.mpr hpos
  have hsend := (Endpoint.new_zero maxReplay eagerAck).1
  have henter := enter_whole hpos
  let e := Endpoint.new maxReplay eagerAck
  have hrun : (machine carrier bytes.length maxReplay eagerAck).run { ep := e }
      [.op (.write bytes), .op (.nextOut bytes.length), .op (.advance false), .op (.advance false),
        .emit] =
      some {
        ep := { e with
          rl := (e.rl.number bytes).takeAck.2
          out := { hiWater := bytes.length }
          call := none }
        sent := items ⟨0, bytes, none⟩ (e.rl.number bytes).takeAck.1 } := by
    have hout : e.out = {} := rfl
    have hcall : e.call = none := rfl
    simp [Machine.run, machine, NumberedFeed.step, EndOp.CallsWith, Endpoint.perform, hout, hcall,
      BufferedPipe.write, BufferedPipe.push, hlen, henter, Reliable.nextOutStart, Reliable.advance,
      NextOut.ofRead, hpos, Endpoint.collect, e, hsend]
  refine ⟨_, Machine.Reachable.run .init hrun, ?_⟩
  simp [items, hpos]

end NumberedFeed

/-! ## What the server takes -/

section Takes

variable {ws : MessageReader} {cfg : ServerConfig} {bytes : Bytes} {off : Nat}

theorem takes_data_frame : cfg.Takes ws (.frame (.frame frameData bytes)) ↔
    bytes.length < 2 ^ 32 ∧ (bytes = [] ∨ (bytes.length : Int) ≤ cfg.maxSendBytes) :=
  Iff.rfl

theorem takes_seq_frame : cfg.Takes ws (.frame (.seq off bytes)) ↔
    bytes.length + seqHeaderLen < 2 ^ 32 ∧
      (bytes.length + seqHeaderLen : Int) ≤ int64 (cfg.maxSendBytes + seqHeaderLen) := by
  have hlen : (encodeOffset off ++ bytes).length = bytes.length + seqHeaderLen := by
    rw [List.length_append, encodeOffset, length_putBigEndian, Nat.add_comm]
  have hne : encodeOffset off ++ bytes ≠ [] := by
    rw [← List.length_pos_iff, hlen]
    exact Nat.lt_add_left _ (by decide)
  show (encodeOffset off ++ bytes).length < 2 ^ 32 ∧ (encodeOffset off ++ bytes = [] ∨
    ((encodeOffset off ++ bytes).length : Int) ≤ int64 (cfg.maxSendBytes + seqHeaderLen)) ↔ _
  rw [hlen, or_iff_right hne, Int.natCast_add]

theorem takes_seq_message : cfg.Takes ws (.binary (wsEncodeSeq off bytes)) ↔
    ws.reads cfg.readLimit (bytes.length + wsHeaderLen true) := by
  have hlen : (wsEncodeSeq off bytes).length = bytes.length + wsHeaderLen true := by
    rw [wsEncodeSeq, List.cons_append, List.length_cons, List.length_append, length_putBigEndian,
      wsHeaderLen, if_pos rfl, seqHeaderLen]
    omega
  rw [ServerConfig.Takes, hlen]

/-- A WebSocket has room for a full buffer when it reads a message that holds one. -/
theorem webSocket_room_iff (hpos : 0 < cfg.pollBufferSize) {resumable : Bool} :
    Carrier.Room ws cfg .webSocket resumable ↔
      ws.reads cfg.readLimit (cfg.pollBufferSize.toNat + wsHeaderLen resumable) := by
  have hcast : ((cfg.pollBufferSize.toNat + wsHeaderLen resumable : Nat) : Int) =
      cfg.pollBufferSize + wsHeaderLen resumable := by
    rw [Int.natCast_add, Int.toNat_of_nonneg (Int.le_of_lt hpos)]
  have h := ws.reads_cases cfg.readLimit (cfg.pollBufferSize.toNat + wsHeaderLen resumable)
  rw [hcast] at h
  exact h.symm

/-- With room for a full buffer the server takes whatever a loop sends. -/
theorem takes_of_room {carrier : Carrier} {resumable : Bool} (hpos : 0 < cfg.pollBufferSize)
    (hroom : carrier.Room ws cfg resumable) {item : Item} {m : Message}
    (hf : item.From resumable cfg.pollBufferSize.toNat) (he : carrier.encode item = some m) :
    cfg.Takes ws m := by
  cases carrier with
  | stream =>
    cases item with
    | data bytes =>
      cases he
      obtain ⟨rfl, hlen⟩ := hf
      obtain ⟨hle, hlt⟩ := hroom
      exact takes_data_frame.mpr ⟨by omega, .inr (by omega)⟩
    | seqData off bytes =>
      cases he
      obtain ⟨rfl, hlen⟩ := hf
      obtain ⟨hle, hlt⟩ := hroom
      exact takes_seq_frame.mpr ⟨by omega, by omega⟩
    | ack off =>
      cases he
      have hlen : (encodeOffset off).length = seqHeaderLen := length_putBigEndian _ _
      exact ⟨hlen ▸ by decide, .inr (hlen ▸ Int.le_refl _)⟩
    | heartbeat | finish => cases he; exact ⟨by decide, .inl rfl⟩
  | webSocket =>
    -- the message of a full buffer is read, and no other one is longer
    have hfull := (webSocket_room_iff hpos).mp hroom
    cases item with
    | data bytes =>
      cases he
      obtain ⟨rfl, hlen⟩ := hf
      exact ws.shorter (Nat.succ_le_succ hlen) hfull
    | seqData off bytes =>
      cases he
      obtain ⟨rfl, hlen⟩ := hf
      exact takes_seq_message.mpr (ws.shorter (Nat.add_le_add_right hlen _) hfull)
    | ack off =>
      cases he
      cases hf
      refine ws.shorter ?_ hfull
      rw [wsEncode, List.length_cons, encodeOffset, length_putBigEndian, wsHeaderLen, if_pos rfl]
      omega
    | heartbeat =>
      cases he
      refine ws.shorter ?_ hfull
      show 1 ≤ _
      omega
    | finish => cases he

/-- The item that carries a full buffer. -/
def Item.whole (resumable : Bool) (bytes : Bytes) : Item :=
  if resumable then .seqData 0 bytes else .data bytes

/-- A server that takes a full buffer has room for it. -/
theorem room_of_takes {carrier : Carrier} {resumable : Bool}
    (hpos : 0 < cfg.pollBufferSize) (hlen : bytes.length = cfg.pollBufferSize.toNat)
    (h : ∀ m, carrier.encode (.whole resumable bytes) = some m → cfg.Takes ws m) :
    carrier.Room ws cfg resumable := by
  have hne : bytes ≠ [] := by
    rw [← List.length_pos_iff]
    omega
  cases carrier with
  | stream =>
    cases resumable with
    | false =>
      obtain ⟨hlt, hle⟩ := takes_data_frame.mp (h _ rfl)
      have hle := hle.resolve_left hne
      exact ⟨by omega, by omega⟩
    | true =>
      obtain ⟨hlt, hle⟩ := takes_seq_frame.mp (h _ rfl)
      exact ⟨by omega, by omega⟩
  | webSocket =>
    rw [webSocket_room_iff hpos, ← hlen]
    cases resumable with
    | false => exact h _ rfl
    | true => exact takes_seq_message.mp (h _ rfl)

/-- **One inequality is enough for all four loops**, away from the ends of the number ranges: a
`PollBufferSize` of at most `MaxSendBytes`. -/
theorem room_of_le (hpos : 0 < cfg.pollBufferSize) (hle : cfg.pollBufferSize ≤ cfg.maxSendBytes)
    (hfield : cfg.pollBufferSize + seqHeaderLen < 2 ^ 32)
    (hword : cfg.maxSendBytes + 1 + seqHeaderLen < 2 ^ 63) (carrier : Carrier) (resumable : Bool) :
    carrier.Room ws cfg resumable := by
  have hseq : int64 (cfg.maxSendBytes + seqHeaderLen) = cfg.maxSendBytes + seqHeaderLen :=
    int64_of_lt (by omega) (by omega)
  have hlimit : cfg.readLimit = cfg.maxSendBytes + 1 + seqHeaderLen :=
    int64_of_lt (by omega) (by omega)
  cases carrier with
  | stream =>
    cases resumable with
    | false => exact ⟨hle, by omega⟩
    | true => exact ⟨by omega, hfield⟩
  | webSocket =>
    refine .inl ?_
    rw [wsHeaderLen]
    split <;> omega

end Takes

namespace FrameUpload

variable {loop : FrameUpload}

/-- A loop sends items of its kind and size only. -/
theorem sends_from {item : Item} (h : loop.Sends item) :
    item.From loop.resumable loop.maxFrame.toNat := by
  obtain ⟨carrier, resumable, maxFrame, maxReplay, eagerAck⟩ := loop
  cases resumable with
  | false =>
    cases carrier with
    | stream | webSocket =>
      obtain ⟨s, hs, hmem⟩ := h
      exact PlainFeed.sent_from hs item hmem
  | true =>
    cases carrier with
    | stream | webSocket =>
      obtain ⟨s, hs, hmem⟩ := h
      exact NumberedFeed.sent_from hs item hmem

/-- It can send any full buffer. -/
theorem sends_whole {bytes : Bytes} (hlen : bytes.length = loop.maxFrame.toNat) (hne : bytes ≠ []) :
    loop.Sends (.whole loop.resumable bytes) := by
  obtain ⟨carrier, resumable, maxFrame, maxReplay, eagerAck⟩ := loop
  cases resumable with
  | false =>
    have h := PlainFeed.sends_full carrier hne
    rw [hlen] at h
    cases carrier with
    | stream | webSocket => exact h
  | true =>
    have h := NumberedFeed.sends_full carrier maxReplay eagerAck hne
    rw [hlen] at h
    cases carrier with
    | stream | webSocket => exact h

/-- **When framed uploads fit.** Whatever connection a connector gets from a server, if it uploads
in frames then the server's reader takes every frame or message of every run of its loop exactly
when the server's configuration has room for a full `PollBufferSize` buffer on that carrier. -/
theorem frames_fit_iff_room (ws : MessageReader) (w : Wiring) (c : Connector) (probe : Bool)
    (h : c.connect w.effective probe = .ok (.connected (.frames loop))) :
    (∀ item, loop.Sends item → ∀ m, loop.carrier.encode item = some m → w.effective.Takes ws m) ↔
      loop.carrier.Room ws w.effective loop.resumable := by
  have hpos : 0 < w.effective.pollBufferSize := orDefault_pos (by decide)
  have hmax : loop.maxFrame = w.effective.pollBufferSize := Connector.connect_maxFrame hpos h
  constructor
  · intro hall
    have hlen : (List.replicate loop.maxFrame.toNat (0 : UInt8)).length = loop.maxFrame.toNat :=
      List.length_replicate
    have hne : List.replicate loop.maxFrame.toNat (0 : UInt8) ≠ [] := by
      rw [← List.length_pos_iff]
      omega
    exact room_of_takes hpos (hmax ▸ hlen) (hall _ (sends_whole hlen hne))
  · intro hroom item hsends m he
    exact takes_of_room hpos hroom (hmax ▸ sends_from hsends) he

/-- A reader whose negative limits are none. -/
def limited : MessageReader where
  reads limit n := limit < 0 ∨ (n : Int) ≤ limit
  reads_iff h := or_iff_right (Int.not_lt.mpr h)
  shorter hk h := h.imp_right fun hle => Int.le_trans (Int.ofNat_le.mpr hk) hle

/-- A server that streams, with two knobs of its own. -/
def streaming (pollBufferSize maxSendBytes : Int) : Wiring where
  cfg :=
    { pollMode := .stream, pollBufferSize := pollBufferSize, maxSendBytes := maxSendBytes }
  ok := rfl

/-- A connector that streams its uploads without a probe. -/
def streamer : Connector := { baseURL := "http://relay", uploadStreamPreference := .stream }

/-- The loop it gets from a server with the given buffer. -/
def streamerLoop (pollBufferSize : Int) : FrameUpload where
  carrier := .stream
  resumable := false
  maxFrame := pollBufferSize
  maxReplay := 0
  eagerAck := false

/-- The defaults leave room. -/
theorem default_frames_fit :
    streamer.connect (streaming 0 0).effective true = .ok (.connected (.frames (streamerLoop 262144))) ∧
      ∀ item, (streamerLoop 262144).Sends item →
        ∀ m, Carrier.encode .stream item = some m → (streaming 0 0).effective.Takes limited m :=
  ⟨by decide, (frames_fit_iff_room limited _ streamer true (by decide)).mpr ⟨by decide, by decide⟩⟩

/-- **A configuration that `check` accepts and that does not.** With a buffer of sixteen bytes and
a bound of eight the loop sends a frame that the server's reader refuses. -/
theorem oversized_frame_refused :
    streamer.connect (streaming 16 8).effective true = .ok (.connected (.frames (streamerLoop 16))) ∧
      (streamerLoop 16).Sends (.data (List.replicate 16 0)) ∧
      Carrier.encode .stream (.data (List.replicate 16 0)) =
        some (.frame (.frame frameData (List.replicate 16 0))) ∧
      next (streaming 16 8).effective.maxSendBytes
        (Written.frame frameData (List.replicate 16 0)).bytes = .error (.tooLong 16 8) := by
  have hsends : (streamerLoop 16).Sends (.whole false (List.replicate 16 0)) :=
    sends_whole rfl (by decide)
  exact ⟨by decide, hsends, rfl, by decide⟩

end FrameUpload

end Pollmux
