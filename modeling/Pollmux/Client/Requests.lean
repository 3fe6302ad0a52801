import Pollmux.Client.Connect
import Pollmux.Server.Intake

/-!
# What a connection posts, and what the server takes it for

The requests of `httpConn` and `resumableConn` to the poll URL, with their headers, and the
responses that `doBatchPoll` and `doBatchSend` read. Which loops a connection runs it decides from
the answer to its connect, and `PollHandler` dispatches on the session it made of that connect.

**The two decisions agree** (`posted_requests_taken`): whatever the server's configuration and the
Connector's settings, no request of an established connection is refused by the dispatch or by a
header check, each goes to the handler that serves its loop, and the offsets that travel as decimal
numbers in headers arrive as they were sent; nor is the probe that comes before (`probe_taken`).
**And so for the way back** (`batch_answers_read`): the bytes and offsets that `pollBatchResumable`
answers go to `recvIn` and `ack` of the client's byte layer, and a response that is cut short changes
nothing there.

Offsets are below 2^64, as in the code; the `Content-Type` headers, which nothing reads, are left
out.
-/

namespace Pollmux

open Kit

/-! ## Headers -/

/-- `HeaderLocalHealth`. -/
def headerLocalHealth : String := "X-Local-Health"

namespace Header

/-- A header with no names. -/
def blank : Header := fun _ => []

/-- `http.Header.Set`. -/
def set (hdr : Header) (name value : String) : Header := Function.update hdr name [value]

end Header

/-- `setBatchOffset`. -/
def setBatchOffset (hdr : Header) (name : String) (off : Nat) : Header := hdr.set name off.repr

/-- `setAuth`. -/
def setAuth (authToken : String) (hdr : Header) : Header :=
  if authToken = "" then hdr else hdr.set "Authorization" ("Bearer " ++ authToken)

/-- The health header of a poll, if the Connector has a `LocalHealth`. -/
def setLocalHealth (localHealth : Option Bool) (hdr : Header) : Header :=
  match localHealth with
  | none => hdr
  | some true => hdr.set headerLocalHealth "ok"
  | some false => hdr.set headerLocalHealth "down"

/-- Reading the digits of a number gives the number. -/
theorem parseDigits_eq {cs : List Char} (n : Nat) (hdigit : ∀ c ∈ cs, c.isDigit = true)
    (hlt : Nat.ofDigitChars 10 cs n < 2 ^ 64) : parseDigits cs n = .ok (Nat.ofDigitChars 10 cs n) := by
  induction cs generalizing n with
  | nil => rfl
  | cons c cs ih =>
    have hstep : Nat.ofDigitChars 10 (c :: cs) n =
        Nat.ofDigitChars 10 cs (n * 10 + (c.toNat - '0'.toNat)) := by
      rw [Nat.ofDigitChars_cons, Nat.mul_comm 10 n]
    rw [hstep] at hlt ⊢
    -- the digits to come only make the number larger
    have hgrows : n * 10 + (c.toNat - '0'.toNat) ≤
        Nat.ofDigitChars 10 cs (n * 10 + (c.toNat - '0'.toNat)) := by
      rw [Nat.ofDigitChars_eq_ofDigitChars_zero]
      exact Nat.le_trans (Nat.le_mul_of_pos_left _ (Nat.pow_pos (by decide))) (Nat.le_add_right _ _)
    rw [parseDigits, if_pos (hdigit c List.mem_cons_self), if_pos (Nat.lt_of_le_of_lt hgrows hlt)]
    exact ih _ (fun d hd => hdigit d (List.mem_cons_of_mem _ hd)) hlt

/-- **`strconv.ParseUint` reads what `strconv.FormatUint` wrote.** -/
theorem parseUint_repr {n : Nat} (hn : n < 2 ^ 64) : parseUint n.repr = .ok n := by
  have hvalue : Nat.ofDigitChars 10 (Nat.toDigits 10 n) 0 = n :=
    Nat.ofDigitChars_toDigits (by decide) (by decide)
  have hdigits : ∀ c ∈ Nat.toDigits 10 n, c.isDigit = true :=
    fun c hc => Nat.isDigit_of_mem_toDigits (by decide) (by decide) hc
  have hparse := parseDigits_eq 0 hdigits (by rw [hvalue]; exact hn)
  rw [hvalue] at hparse
  have hne : n.repr ≠ "" := by
    intro h
    have hnil := congrArg String.toList h
    rw [Nat.toList_repr] at hnil
    exact Nat.toDigits_ne_nil hnil
  rw [parseUint, if_neg hne, Nat.toList_repr, hparse]

theorem batchOffset_of_eq {hdr : Header} {name : String} {off : Nat} (h : hdr name = [off.repr])
    (hoff : off < 2 ^ 64) : batchOffset hdr name = .ok off := by
  rw [batchOffset, h]
  simp only [parseUint_repr hoff]

/-! ## Requests -/

/-- What a connection posts to its poll URL. -/
inductive Request
  /-- `httpConn.doPoll` and both `doStreamPoll`s. -/
  | poll
  /-- `httpConn.doSend`. -/
  | send (chunk : Bytes)
  /-- Both `doSendStream`s. -/
  | sendStream (body : Bytes)
  /-- `probeUploadStream`. -/
  | probe (body : Bytes)
  /-- `doBatchPoll`. -/
  | batchPoll (recv : Nat)
  /-- `doBatchSend`. -/
  | batchSend (off recv : Nat) (data : Bytes)
  deriving DecidableEq, Repr

namespace Request

/-- Its header, before the token is added. -/
def fields (localHealth : Option Bool) : Request → Header
  | .poll => setLocalHealth localHealth (Header.blank.set headerReceiveOnly "true")
  | .send _ => Header.blank.set headerSendOnly "true"
  | .sendStream _ => Header.blank.set headerSendStream "true"
  | .probe _ => (Header.blank.set headerSendStream "true").set headerSendStreamProbe "true"
  | .batchPoll recv =>
    setLocalHealth localHealth
      (setBatchOffset (Header.blank.set headerReceiveOnly "true") headerRecvOffset recv)
  | .batchSend off recv _ =>
    setBatchOffset (setBatchOffset (Header.blank.set headerSendOnly "true") headerSendOffset off)
      headerRecvOffset recv

/-- What the connection sends of its body. -/
def body : Request → Bytes
  | .poll | .batchPoll _ => []
  | .send data | .sendStream data | .probe data | .batchSend _ _ data => data

/-- The length it declares: a streamed body has none. -/
def contentLength : Request → Int
  | .sendStream _ | .probe _ => -1
  | q => q.body.length

/-- The request on the wire, whose body may be cut. -/
def http (authToken : String) (localHealth : Option Bool) (complete : Bool) (q : Request) :
    HttpRequest where
  header := setAuth authToken (q.fields localHealth)
  contentLength := q.contentLength
  body := q.body
  complete := complete

/-- The offsets it carries fit a word. -/
def Numbered : Request → Prop
  | .batchPoll recv => recv < 2 ^ 64
  | .batchSend off recv _ => off < 2 ^ 64 ∧ recv < 2 ^ 64
  | _ => True

/-- The path meant for it. -/
def meant (resumable : Bool) : Request → Path
  | .poll => if resumable then .streamPoll else .plain false
  | .send _ => .plain true
  | .sendStream _ => .sendStream false
  | .probe _ => .sendStream true
  | .batchPoll _ => .batch false
  | .batchSend _ _ _ => .batch true

/-- What the server has to make of it before it touches the session. -/
def first (resumable : Bool) : Request → TaskPc
  | .poll | .probe _ => .elsewhere
  | .send _ => .readingBody none
  | .sendStream body => if resumable then .attaching .stream else .framing body
  | .batchPoll recv => .attaching (.batchDown recv)
  | .batchSend off recv _ => .attaching (.batchUp recv off)

end Request

/-- The session that `ConnectHandler` makes of the connect it answers with `cr`. -/
def ConnectResponse.session (cr : ConnectResponse) : SessionMode :=
  { cr.mode with batchResume := cr.batchResume }

/-- **What the loops of a connection post.** `connect` starts them on the answer `cr`, with the
upload side it chose: `pollLoop`, `pollLoopStream` or `downLoop` posts polls, `batchDownLoop` batch
polls, `flushLoop` sends, `batchUpLoop` batch sends, `sendLoopStream` or `upLoop` send-streams. A
WebSocket connection posts nothing here. -/
inductive Posts (cr : ConnectResponse) (upload : Upload) : Request → Prop
  | poll (hws : cr.mode.webSocket = false) (hstream : cr.mode.resumable → cr.mode.streamPoll) :
    Posts cr upload .poll
  | batchPoll (recv : Nat) (hws : cr.mode.webSocket = false) (hres : cr.mode.resumable)
    (hbatch : cr.mode.streamPoll = false) : Posts cr upload (.batchPoll recv)
  | send (chunk : Bytes) {maxSendChunk : Int} (hup : upload = .requests maxSendChunk)
    (hres : cr.mode.resumable = false) : Posts cr upload (.send chunk)
  | batchSend (off recv : Nat) (data : Bytes) {maxSendChunk : Int}
    (hup : upload = .requests maxSendChunk) (hres : cr.mode.resumable) :
    Posts cr upload (.batchSend off recv data)
  | sendStream (body : Bytes) {loop : FrameUpload} (hup : upload = .frames loop)
    (hcarrier : loop.carrier = .stream) : Posts cr upload (.sendStream body)

/-! ## What the handler reads of them -/

theorem Header.set_self (hdr : Header) (name value : String) : hdr.set name value name = [value] :=
  Function.update_self ..

theorem Header.set_of_ne {hdr : Header} {name other value : String} (h : other ≠ name) :
    hdr.set name value other = hdr other :=
  Function.update_of_ne h ..

theorem setAuth_of_ne {authToken name : String} {hdr : Header} (h : name ≠ "Authorization") :
    setAuth authToken hdr name = hdr name := by
  unfold setAuth
  split_ifs
  · rfl
  · exact Header.set_of_ne h

theorem setLocalHealth_of_ne {localHealth : Option Bool} {name : String} {hdr : Header}
    (h : name ≠ headerLocalHealth) : setLocalHealth localHealth hdr name = hdr name := by
  unfold setLocalHealth
  split
  · rfl
  · exact Header.set_of_ne h
  · exact Header.set_of_ne h

namespace Request

variable (authToken : String) (localHealth : Option Bool) (complete : Bool) (q : Request)

/-- The token and the health report are under names of their own. -/
theorem header_apply {name : String} (hauth : name ≠ "Authorization")
    (hhealth : name ≠ headerLocalHealth) :
    (q.http authToken localHealth complete).header name = q.fields none name := by
  show setAuth authToken (q.fields localHealth) name = _
  rw [setAuth_of_ne hauth]
  cases q with
  | poll => exact setLocalHealth_of_ne hhealth
  | batchPoll recv => exact setLocalHealth_of_ne hhealth
  | _ => rfl

theorem isTrue_apply {name : String} (hauth : name ≠ "Authorization")
    (hhealth : name ≠ headerLocalHealth) :
    (q.http authToken localHealth complete).header.isTrue name = (q.fields none).isTrue name := by
  rw [Header.isTrue, Header.isTrue, header_apply authToken localHealth complete q hauth hhealth]

/-- It is streamed. -/
def streams : Request → Bool
  | .sendStream _ | .probe _ => true
  | _ => false

/-- It is a probe. -/
def probes : Request → Bool
  | .probe _ => true
  | _ => false

/-- It only sends. -/
def sends : Request → Bool
  | .send _ | .batchSend _ _ _ => true
  | _ => false

/-- It only receives. -/
def receives : Request → Bool
  | .poll | .batchPoll _ => true
  | _ => false

/-- A header says of a request what it is. -/
structure Flags (hdr : Header) (q : Request) : Prop where
  sendStream : hdr.isTrue headerSendStream = q.streams
  probe : hdr.isTrue headerSendStreamProbe = q.probes
  sendOnly : hdr.isTrue headerSendOnly = q.sends
  receiveOnly : hdr.isTrue headerReceiveOnly = q.receives

theorem flags_fields : Flags (q.fields none) q := by
  cases q <;> constructor <;>
    simp [fields, setLocalHealth, setBatchOffset, Header.isTrue, Header.set, Header.blank,
      headerSendStream, headerSendStreamProbe, headerSendOnly, headerReceiveOnly, headerSendOffset,
      headerRecvOffset, streams, probes, sends, receives]

/-- **The handler reads the directions that the connection wrote.** -/
theorem flags : Flags (q.http authToken localHealth complete).header q := by
  have h := flags_fields q
  constructor
  · rw [isTrue_apply _ _ _ _ (by decide) (by decide), h.sendStream]
  · rw [isTrue_apply _ _ _ _ (by decide) (by decide), h.probe]
  · rw [isTrue_apply _ _ _ _ (by decide) (by decide), h.sendOnly]
  · rw [isTrue_apply _ _ _ _ (by decide) (by decide), h.receiveOnly]

/-- The offset that a batch poll or a batch send acknowledges. -/
theorem recvOffset_read {recv : Nat} (hrecv : recv < 2 ^ 64)
    (hq : q = .batchPoll recv ∨ ∃ off data, q = .batchSend off recv data) :
    batchOffset (q.http authToken localHealth complete).header headerRecvOffset = .ok recv := by
  apply batchOffset_of_eq _ hrecv
  rw [header_apply _ _ _ _ (by decide) (by decide)]
  rcases hq with rfl | ⟨off, data, rfl⟩
  · simp only [fields, setLocalHealth, setBatchOffset, Header.set_self]
  · simp only [fields, setBatchOffset, Header.set_self]

/-- The offset that a batch send starts at. -/
theorem sendOffset_read {off : Nat} (recv : Nat) (data : Bytes) (hoff : off < 2 ^ 64) :
    batchOffset ((Request.batchSend off recv data).http authToken localHealth complete).header
      headerSendOffset = .ok off := by
  have hne : headerSendOffset ≠ headerRecvOffset := by decide
  apply batchOffset_of_eq _ hoff
  rw [header_apply _ _ _ _ (by decide) (by decide)]
  simp only [fields, setBatchOffset, Header.set_of_ne hne, Header.set_self]

end Request

/-! ## Which paths the requests take -/

/-- A connection is established on an answer that passed the checks. -/
theorem Connector.attempt_connected {c : Connector} {cfg : ServerConfig}
    {preferResume forceBatchUpload probe : Bool} {upload : Upload}
    (h : c.attempt cfg preferResume forceBatchUpload probe = .ok (.connected upload)) :
    let cr := connectResponse cfg (c.request preferResume forceBatchUpload)
    c.refuses cr = none ∧ c.establish cr probe = .connected upload := by
  simp only [attempt] at h
  split at h
  next => cases h
  next hnone => exact ⟨hnone, Except.ok.inj h⟩

/-- A resumable session over HTTP that is not refused can resume its batch directions. -/
theorem Connector.batchResume_of_accepted {c : Connector} {cr : ConnectResponse}
    (h : c.refuses cr = none) (hres : cr.mode.resumable = true) (hws : cr.mode.webSocket = false)
    (hbatch : cr.mode.streamPoll = false ∨ cr.mode.streamUpload = false) : cr.batchResume = true := by
  by_contra hno
  rw [Bool.not_eq_true] at hno
  have hsplit : cr.mode.resumable = true ∧ cr.mode.webSocket = false ∧ cr.batchResume = false ∧
      (cr.mode.streamPoll = false ∨ cr.mode.streamUpload = false) := ⟨hres, hws, hno, hbatch⟩
  unfold refuses at h
  dsimp only at h
  split at h
  next => cases h
  next =>
    split at h
    next => cases h
    next =>
      split at h
      next => cases h
      next =>
        split at h
        next => cases h
        next => cases h

/-- An upload side in requests on a resumable session is one that was not negotiated to stream, and
one in frames over a stream one that was. -/
theorem Connector.establish_upload {c : Connector} {cr : ConnectResponse} {probe : Bool}
    {upload : Upload} (h : c.establish cr probe = .connected upload) :
    (∀ chunk, upload = .requests chunk → cr.mode.webSocket = false ∧
      (cr.mode.resumable = true → cr.mode.streamUpload = false)) ∧
    (∀ loop, upload = .frames loop → loop.carrier = .stream →
      cr.mode.webSocket = false ∧ cr.mode.streamUpload = true) := by
  unfold establish at h
  split at h
  next hws => cases h; exact ⟨nofun, fun _ heq hc => by cases heq; cases hc⟩
  next hws =>
    have hws : cr.mode.webSocket = false := Bool.not_eq_true _ ▸ hws
    split at h
    next hres =>
      split at h
      next => cases h
      next =>
        split at h
        next hup => cases h; exact ⟨nofun, fun _ _ _ => ⟨hws, hup⟩⟩
        next hup => cases h; exact ⟨fun _ _ => ⟨hws, fun _ => Bool.not_eq_true _ ▸ hup⟩, nofun⟩
    next hres =>
      have hplain : cr.mode.resumable = true → cr.mode.streamUpload = false := fun h => absurd h hres
      split at h
      next hup =>
        split at h
        next => cases h; exact ⟨nofun, fun _ _ _ => ⟨hws, hup⟩⟩
        next => cases h; exact ⟨fun _ _ => ⟨hws, hplain⟩, nofun⟩
        all_goals
          split at h
          next => cases h; exact ⟨nofun, fun _ _ _ => ⟨hws, hup⟩⟩
          next => cases h; exact ⟨fun _ _ => ⟨hws, hplain⟩, nofun⟩
      next => cases h; exact ⟨fun _ _ => ⟨hws, hplain⟩, nofun⟩

/-- The dispatch, for a request whose header says what it is. -/
theorem route_flags {m : SessionMode} {hdr : Header} {q : Request} (h : Request.Flags hdr q) :
    route m hdr =
      if q.streams then
        if m.resumable ∧ (m.webSocket ∨ m.streamUpload = false) then
          .refused "session did not negotiate streamed uploads"
        else .sendStream q.probes
      else if m.resumable then
        if m.webSocket ∨ q.sends = q.receives then
          .refused "resumable HTTP session requires exactly one direction"
        else if q.receives ∧ m.streamPoll then .streamPoll
        else if m.batchResume ∧ (q.sends = false ∨ m.streamUpload = false) then .batch q.sends
        else .refused "session did not negotiate this batch direction"
      else .plain q.sends := by
  simp only [route, h.sendStream, h.probe, h.sendOnly, h.receiveOnly]

/-- **Each request that a connection posts is dispatched to the path meant for it.** -/
theorem route_posted {c : Connector} {cr : ConnectResponse} {probe : Bool} {upload : Upload}
    {q : Request} {hdr : Header} (haccept : c.refuses cr = none)
    (hest : c.establish cr probe = .connected upload) (hq : Posts cr upload q)
    (hflags : Request.Flags hdr q) : route cr.session hdr = q.meant cr.mode.resumable := by
  obtain ⟨hrequests, hframes⟩ := Connector.establish_upload hest
  rw [route_flags hflags]
  cases hq with
  | poll hws hstream =>
    cases hres : cr.mode.resumable with
    | false => simp [Request.streams, Request.sends, Request.meant, ConnectResponse.session, hres]
    | true =>
      have hpoll := hstream hres
      simp [Request.streams, Request.sends, Request.receives, Request.meant, ConnectResponse.session,
        hres, hws, hpoll]
  | batchPoll recv hws hres hbatch =>
    have hresume := Connector.batchResume_of_accepted haccept hres hws (.inl hbatch)
    simp [Request.streams, Request.sends, Request.receives, Request.meant, ConnectResponse.session,
      hres, hws, hbatch, hresume]
  | send chunk hup hres =>
    simp [Request.streams, Request.sends, Request.meant, ConnectResponse.session, hres]
  | batchSend off recv data hup hres =>
    obtain ⟨hws, hupload⟩ := hrequests _ hup
    have hbatch := hupload hres
    have hresume := Connector.batchResume_of_accepted haccept hres hws (.inr hbatch)
    simp [Request.streams, Request.sends, Request.receives, Request.meant, ConnectResponse.session,
      hres, hws, hbatch, hresume]
  | sendStream body hup hcarrier =>
    obtain ⟨hws, hupload⟩ := hframes _ hup hcarrier
    simp [Request.streams, Request.probes, Request.meant, ConnectResponse.session, hws, hupload]

/-- **The server takes every request of a connection for what it is.** For every configuration and
every Connector, whatever the probe said: each request of an established connection goes to the
path meant for it, and its first steps there are with the offsets the connection wrote. No such
request is answered 400 for its direction or for its headers. -/
theorem posted_requests_taken {c : Connector} {cfg : ServerConfig}
    {preferResume forceBatchUpload probe : Bool} {upload : Upload} {q : Request}
    (h : c.attempt cfg preferResume forceBatchUpload probe = .ok (.connected upload))
    (hq : Posts (connectResponse cfg (c.request preferResume forceBatchUpload)) upload q)
    (hnum : q.Numbered) (authToken : String) (localHealth : Option Bool) (complete : Bool) :
    let cr := connectResponse cfg (c.request preferResume forceBatchUpload)
    let sent := q.http authToken localHealth complete
    route cr.session sent.header = q.meant cr.mode.resumable ∧
      firstPc cr.session sent = q.first cr.mode.resumable := by
  intro cr sent
  obtain ⟨haccept, hest⟩ := Connector.attempt_connected h
  have hroute : route cr.session sent.header = q.meant cr.mode.resumable :=
    route_posted haccept hest hq (Request.flags authToken localHealth complete q)
  refine ⟨hroute, ?_⟩
  rw [firstPc, hroute]
  cases hq with
  | poll => cases cr.mode.resumable <;> rfl
  | send => rfl
  | sendStream => rfl
  | batchPoll recv =>
    have hrecv := Request.recvOffset_read authToken localHealth complete (.batchPoll recv) hnum
      (.inl rfl)
    simp only [Request.meant, sent, hrecv]
    rfl
  | batchSend off recv data =>
    have hrecv := Request.recvOffset_read authToken localHealth complete (.batchSend off recv data)
      hnum.2 (.inr ⟨off, data, rfl⟩)
    have hoff := Request.sendOffset_read authToken localHealth complete recv data hnum.1
    simp only [Request.meant, sent, hrecv, hoff]
    rfl

/-- **The probe is taken for a probe** wherever its outcome decides what the connection does. -/
theorem probe_taken {c : Connector} {cr : ConnectResponse}
    (h : c.establish cr true ≠ c.establish cr false) (body : Bytes) (authToken : String)
    (localHealth : Option Bool) (complete : Bool) :
    route cr.session ((Request.probe body).http authToken localHealth complete).header =
      (Request.probe body).meant cr.mode.resumable := by
  have hws : cr.mode.webSocket = false := by
    by_contra hws
    rw [Bool.not_eq_false] at hws
    exact h (by rw [Connector.establish, Connector.establish, if_pos hws, if_pos hws])
  have hup : cr.mode.streamUpload = true := by
    by_contra hup
    exact h (by simp [Connector.establish, hup])
  rw [route_flags (Request.flags authToken localHealth complete _)]
  simp [Request.streams, Request.probes, Request.meant, ConnectResponse.session, hws, hup]

/-- A server that resumes and does not stream. -/
def batchServer : ServerConfig := ServerConfig.withDefaults { enableResume := true }

/-- A Connector that wants to resume. -/
def batchConnector : Connector := { baseURL := "http://relay", preferResume := true }

theorem posted_requests_taken_batch :
    firstPc (connectResponse batchServer (batchConnector.request true false)).session
      ((Request.batchSend 70000 12 [1]).http "token" none true) = .attaching (.batchUp 12 70000) :=
  (posted_requests_taken
    (show batchConnector.attempt batchServer true false true = .ok (.connected (.requests 524288)) by
      decide)
    (.batchSend 70000 12 [1] rfl (by decide)) ⟨by decide, by decide⟩ "token" none true).2

/-! ## Responses -/

/-- What reading a body to its end fails with. -/
inductive BodyErr
  | timeout
  | other
  deriving DecidableEq, Repr

/-- A response, with what arrives of its body and how that ends. -/
structure HttpResponse where
  status : Nat
  header : Header := Header.blank
  body : Bytes := []
  broken : Option BodyErr := none

/-- `io.ReadAll(io.LimitReader(resp.Body, limit))`: past the limit nothing is read. -/
def HttpResponse.readAll (resp : HttpResponse) (limit : Nat) : Except BodyErr Bytes :=
  if limit ≤ resp.body.length then .ok (resp.body.take limit)
  else
    match resp.broken with
    | some e => .error e
    | none => .ok resp.body

/-- What a batch exchange fails with on a response. -/
inductive BatchErr
  | status (code : Nat)
  /-- `errBatchBodyTimeout`. -/
  | bodyTimeout
  | reading
  /-- "pollmux: batch response exceeds poll_buffer_bytes". -/
  | tooLong
  /-- "pollmux: batch response is 200 with an empty body". -/
  | emptyBody
  /-- "pollmux: unexpected batch send response body". -/
  | unexpectedBody
  | offset (e : OffsetErr)
  | layer (e : Err)
  deriving DecidableEq, Repr

/-- The `ack` that ends an exchange; `got` is what it returns if that succeeds. -/
def Endpoint.acknowledged (ep : Endpoint) (ack : Nat) (got : Bool) :
    Option (Except BatchErr Bool × Endpoint) :=
  (ep.rl.ack ack).map fun (err, rl) =>
    (match err with
      | some e => .error (.layer e)
      | none => .ok got, { ep with rl := rl })

/-- The bytes of a response and then its acknowledgement go to the byte layer. -/
def Endpoint.tookChunk (ep : Endpoint) (off : Nat) (data : Bytes) (ack : Nat) :
    Option (Except BatchErr Bool × Endpoint) :=
  (ep.hear off data).bind fun (err, ep') =>
    match err with
    | some e => some (.error (.layer e), ep')
    | none => ep'.acknowledged ack (data ≠ [])

/-- `doBatchPoll` from its response on. -/
def doBatchPoll (maxFrame : Nat) (ep : Endpoint) (resp : HttpResponse) :
    Option (Except BatchErr Bool × Endpoint) :=
  if resp.status ≠ 200 ∧ resp.status ≠ 204 then some (.error (.status resp.status), ep)
  else
    match resp.readAll (maxFrame + 1) with
    | .error .timeout => some (.error (if resp.status = 200 then .bodyTimeout else .reading), ep)
    | .error .other => some (.error .reading, ep)
    | .ok data =>
      if data.length > maxFrame then some (.error .tooLong, ep)
      else if resp.status = 200 ∧ data = [] then some (.error .emptyBody, ep)
      else
        match batchOffset resp.header headerRecvOffset with
        | .error e => some (.error (.offset e), ep)
        | .ok ack =>
          if resp.status = 200 then
            match batchOffset resp.header headerSendOffset with
            | .error e => some (.error (.offset e), ep)
            | .ok off => ep.tookChunk off data ack
          else ep.acknowledged ack (data ≠ [])

/-- `doBatchSend` from its response on; `true` is its success. -/
def doBatchSend (ep : Endpoint) (resp : HttpResponse) : Option (Except BatchErr Bool × Endpoint) :=
  if resp.status ≠ 200 then some (.error (.status resp.status), ep)
  else
    match resp.readAll 1 with
    | .error _ => some (.error .reading, ep)
    | .ok body =>
      if body ≠ [] then some (.error .unexpectedBody, ep)
      else
        match batchOffset resp.header headerRecvOffset with
        | .error e => some (.error (.offset e), ep)
        | .ok ack => ep.acknowledged ack true

/-- What `net/http` sends for an answer of `pollBatchResumable`, with `render` for the body of an
error. A handler that returns without an answer is answered 200 with nothing in it; one that faults
is not answered. -/
def Answer.response (render : Reason → Bytes) : Answer → Option HttpResponse
  | .error status reason => some { status := status, body := render reason }
  | .ok recvOffset =>
    some { status := 200, header := recvOffset.elim Header.blank (setBatchOffset .blank headerRecvOffset) }
  | .chunk recvOffset off bytes =>
    some
      { status := 200
        header := setBatchOffset (setBatchOffset .blank headerRecvOffset recvOffset) headerSendOffset off
        body := bytes }
  | .noContent recvOffset =>
    some { status := 204, header := setBatchOffset .blank headerRecvOffset recvOffset }
  | .silent => some { status := 200 }
  | .fault => none

/-- **What an answer means to the poll that gets it.** The bytes of a chunk go to `recvIn` and then
its offset to `ack`, an idle poll has an offset only, and nothing else reaches the byte layer. -/
inductive Answer.Polled (ep : Endpoint) : Answer → Except BatchErr Bool → Endpoint → Prop
  | took {recvOffset off : Nat} {bytes : Bytes} {ep' : Endpoint} {rl : Reliable}
      (hear : ep.hear off bytes = some (none, ep')) (hack : ep'.rl.ack recvOffset = some (none, rl)) :
      Polled ep (.chunk recvOffset off bytes) (.ok true) { ep' with rl := rl }
  | gap {recvOffset off : Nat} {bytes : Bytes} {ep' : Endpoint} {e : Err}
      (hear : ep.hear off bytes = some (some e, ep')) :
      Polled ep (.chunk recvOffset off bytes) (.error (.layer e)) ep'
  | tookBadAck {recvOffset off : Nat} {bytes : Bytes} {ep' : Endpoint} {e : Err} {rl : Reliable}
      (hear : ep.hear off bytes = some (none, ep'))
      (hack : ep'.rl.ack recvOffset = some (some e, rl)) :
      Polled ep (.chunk recvOffset off bytes) (.error (.layer e)) { ep' with rl := rl }
  | idle {recvOffset : Nat} {rl : Reliable} (hack : ep.rl.ack recvOffset = some (none, rl)) :
      Polled ep (.noContent recvOffset) (.ok false) { ep with rl := rl }
  | idleBadAck {recvOffset : Nat} {e : Err} {rl : Reliable}
      (hack : ep.rl.ack recvOffset = some (some e, rl)) :
      Polled ep (.noContent recvOffset) (.error (.layer e)) { ep with rl := rl }
  | refused {status : Nat} {reason : Reason} :
      Polled ep (.error status reason) (.error (.status status)) ep
  | empty {a : Answer} (ha : a = .silent ∨ ∃ recvOffset, a = .ok recvOffset) :
      Polled ep a (.error .emptyBody) ep

/-- **What an answer means to the upload that gets it.** The offset of a 200 goes to `ack`, and
nothing else reaches the byte layer. -/
inductive Answer.Sent (ep : Endpoint) : Answer → Except BatchErr Bool → Endpoint → Prop
  | taken {recvOffset : Nat} {rl : Reliable} (hack : ep.rl.ack recvOffset = some (none, rl)) :
      Sent ep (.ok (some recvOffset)) (.ok true) { ep with rl := rl }
  | badAck {recvOffset : Nat} {e : Err} {rl : Reliable}
      (hack : ep.rl.ack recvOffset = some (some e, rl)) :
      Sent ep (.ok (some recvOffset)) (.error (.layer e)) { ep with rl := rl }
  | refused {status : Nat} {reason : Reason} :
      Sent ep (.error status reason) (.error (.status status)) ep
  | noContent {recvOffset : Nat} : Sent ep (.noContent recvOffset) (.error (.status 204)) ep
  | body {recvOffset off : Nat} {bytes : Bytes} :
      Sent ep (.chunk recvOffset off bytes) (.error .unexpectedBody) ep
  | unnumbered {a : Answer} (ha : a = .silent ∨ a = .ok none) :
      Sent ep a (.error (.offset (.count headerRecvOffset))) ep

/-- The answers of `pollBatchResumable`: offsets that fit a word, bodies that fit the poll buffer, a
200 only with bytes, and errors under a status of their own. -/
def Answer.OfBatch (maxFrame : Nat) : Answer → Prop
  | .error status _ => status ≠ 200 ∧ status ≠ 204
  | .ok recvOffset => ∀ n, recvOffset = some n → n < 2 ^ 64
  | .chunk recvOffset off bytes =>
    recvOffset < 2 ^ 64 ∧ off < 2 ^ 64 ∧ bytes ≠ [] ∧ bytes.length ≤ maxFrame
  | .noContent recvOffset => recvOffset < 2 ^ 64
  | .silent | .fault => True

/-- A response whose body breaks off after `k` bytes. -/
def HttpResponse.cut (resp : HttpResponse) (k : Nat) (e : BodyErr) : HttpResponse :=
  { resp with body := resp.body.take k, broken := some e }

/-- What `pollBatchResumable` answers a poll is one of its answers. -/
theorem batchReply_ofBatch {ctxDone : Bool} {rl : Reliable} {res : NextResult} {maxFrame : Nat}
    (hrecv : rl.recvOffset < 2 ^ 64) (hoff : res.off < 2 ^ 64)
    (hlen : res.bytes.length ≤ maxFrame) : (batchReply ctxDone rl res).OfBatch maxFrame := by
  have hbody : (if res.bytes = [] then Answer.noContent rl.recvOffsetNow
      else .chunk rl.recvOffsetNow res.off res.bytes).OfBatch maxFrame := by
    split_ifs with hnil
    · exact hrecv
    · exact ⟨hrecv, hoff, hnil, hlen⟩
  unfold batchReply
  cases ctxDone with
  | true => trivial
  | false =>
    simp only [Bool.false_eq_true, if_false]
    split
    · exact ⟨by decide, by decide⟩
    · exact hbody
    · exact hbody
    · exact ⟨by decide, by decide⟩

theorem recvOffset_of_chunk {recvOffset : Nat} (off : Nat) (h : recvOffset < 2 ^ 64) :
    batchOffset (setBatchOffset (setBatchOffset .blank headerRecvOffset recvOffset)
      headerSendOffset off) headerRecvOffset = .ok recvOffset := by
  have hne : headerRecvOffset ≠ headerSendOffset := by decide
  apply batchOffset_of_eq _ h
  simp only [setBatchOffset, Header.set_of_ne hne, Header.set_self]

theorem batchOffset_set {hdr : Header} {name : String} {off : Nat} (h : off < 2 ^ 64) :
    batchOffset (setBatchOffset hdr name off) name = .ok off :=
  batchOffset_of_eq (Header.set_self ..) h

/-- A poll takes an answer for what it is. -/
theorem doBatchPoll_response {maxFrame : Nat} {a : Answer} (h : a.OfBatch maxFrame)
    {render : Reason → Bytes} {resp : HttpResponse} (hresp : a.response render = some resp)
    {ep : Endpoint} (hwf : ep.rl.Wf) :
    ∃ res ep', doBatchPoll maxFrame ep resp = some (res, ep') ∧ a.Polled ep res ep' := by
  cases a with
  | error status reason => cases hresp; exact ⟨_, _, if_pos h, .refused⟩
  | ok recvOffset => cases hresp; exact ⟨_, _, rfl, .empty (.inr ⟨recvOffset, rfl⟩)⟩
  | chunk recvOffset off bytes =>
    obtain ⟨hrecv, hoff, hne, hlen⟩ := h
    cases hresp
    simp only [doBatchPoll, HttpResponse.readAll, recvOffset_of_chunk off hrecv, batchOffset_set hoff,
      if_neg (Nat.not_le.mpr (Nat.lt_succ_of_le hlen)), if_neg (Nat.not_lt.mpr hlen)]
    obtain ⟨err, ep', hear⟩ := Endpoint.hear_total hwf off bytes
    cases err with
    | some e => exact ⟨_, _, by simp [hne, Endpoint.tookChunk, hear], .gap hear⟩
    | none =>
      obtain ⟨err, rl, hack⟩ := Reliable.ack_total (Endpoint.hear_wf hwf hear) recvOffset
      cases err with
      | none =>
        exact ⟨_, _, by simp [hne, Endpoint.tookChunk, Endpoint.acknowledged, hear, hack],
          .took hear hack⟩
      | some e =>
        exact ⟨_, _, by simp [hne, Endpoint.tookChunk, Endpoint.acknowledged, hear, hack],
          .tookBadAck hear hack⟩
  | noContent recvOffset =>
    cases hresp
    obtain ⟨err, rl, hack⟩ := Reliable.ack_total hwf recvOffset
    cases err with
    | none =>
      exact ⟨_, _, by simp [doBatchPoll, HttpResponse.readAll, batchOffset_set h,
        Endpoint.acknowledged, hack], .idle hack⟩
    | some e =>
      exact ⟨_, _, by simp [doBatchPoll, HttpResponse.readAll, batchOffset_set h,
        Endpoint.acknowledged, hack], .idleBadAck hack⟩
  | silent => cases hresp; exact ⟨_, _, rfl, .empty (.inl rfl)⟩
  | fault => cases hresp

/-- An upload takes an answer for what it is. -/
theorem doBatchSend_response {maxFrame : Nat} {a : Answer} (h : a.OfBatch maxFrame)
    {render : Reason → Bytes} {resp : HttpResponse} (hresp : a.response render = some resp)
    {ep : Endpoint} (hwf : ep.rl.Wf) :
    ∃ res ep', doBatchSend ep resp = some (res, ep') ∧ a.Sent ep res ep' := by
  cases a with
  | error status reason => cases hresp; exact ⟨_, _, if_pos h.1, .refused⟩
  | ok recvOffset =>
    cases hresp
    cases recvOffset with
    | none => exact ⟨_, _, rfl, .unnumbered (.inr rfl)⟩
    | some n =>
      obtain ⟨err, rl, hack⟩ := Reliable.ack_total hwf n
      cases err with
      | none =>
        exact ⟨_, _, by simp [doBatchSend, HttpResponse.readAll, batchOffset_set (h n rfl),
          Endpoint.acknowledged, hack], .taken hack⟩
      | some e =>
        exact ⟨_, _, by simp [doBatchSend, HttpResponse.readAll, batchOffset_set (h n rfl),
          Endpoint.acknowledged, hack], .badAck hack⟩
  | chunk recvOffset off bytes =>
    obtain ⟨-, -, hne, -⟩ := h
    cases hresp
    have hpos : 1 ≤ bytes.length := List.length_pos_iff.mpr hne
    exact ⟨_, _, by simp [doBatchSend, HttpResponse.readAll, hpos, hne], .body⟩
  | noContent recvOffset => cases hresp; exact ⟨_, _, rfl, .noContent⟩
  | silent => cases hresp; exact ⟨_, _, rfl, .unnumbered (.inl rfl)⟩
  | fault => cases hresp

/-- A body that breaks off before the limit is an error and nothing else. -/
theorem HttpResponse.readAll_cut {resp : HttpResponse} {limit k : Nat} {e : BodyErr}
    (h : (resp.body.take k).length < limit) : (resp.cut k e).readAll limit = .error e := by
  have hlt : ¬ limit ≤ (resp.cut k e).body.length := Nat.not_le.mpr h
  rw [readAll, if_neg hlt]
  rfl

/-- A poll whose response breaks off fails and leaves the byte layer alone. -/
theorem doBatchPoll_cut {maxFrame : Nat} {resp : HttpResponse} {k : Nat} {e : BodyErr}
    (h : resp.body.length ≤ maxFrame ∨ resp.status ≠ 200 ∧ resp.status ≠ 204) (ep : Endpoint) :
    ∃ err, doBatchPoll maxFrame ep (resp.cut k e) = some (.error err, ep) := by
  unfold doBatchPoll
  by_cases hstatus : (resp.cut k e).status ≠ 200 ∧ (resp.cut k e).status ≠ 204
  · rw [if_pos hstatus]
    exact ⟨_, rfl⟩
  · have hlen : resp.body.length ≤ maxFrame := h.resolve_right hstatus
    rw [if_neg hstatus, HttpResponse.readAll_cut (by rw [List.length_take]; omega)]
    cases e <;> exact ⟨_, rfl⟩

/-- An upload whose response breaks off fails and leaves the byte layer alone. -/
theorem doBatchSend_cut {resp : HttpResponse} {k : Nat} {e : BodyErr} (ep : Endpoint) :
    ∃ err, doBatchSend ep (resp.cut k e) = some (.error err, ep) := by
  unfold doBatchSend
  split_ifs with hstatus
  · exact ⟨_, rfl⟩
  · by_cases hnil : resp.body.take k = []
    · rw [HttpResponse.readAll_cut (by rw [hnil]; decide)]
      exact ⟨_, rfl⟩
    · have hpos : 1 ≤ (resp.cut k e).body.length := List.length_pos_iff.mpr hnil
      have htake : (resp.cut k e).body.take 1 ≠ [] := by
        rw [Ne, List.take_eq_nil_iff]
        rintro (h | h)
        · cases h
        · exact hnil h
      rw [HttpResponse.readAll, if_pos hpos]
      simp only [htake, ne_eq, not_false_eq_true, if_true]
      exact ⟨_, rfl⟩

/-- **A batch exchange ends as the server meant it to, or with an error and an untouched layer.** For
every answer of `pollBatchResumable` and every client: of a response that is read whole the bytes go
to `recvIn` and the offset to `ack`, in this order, and the exchange succeeds if both do; if its body
breaks off anywhere, the exchange fails and the layer is as before. The empty 200 that `net/http`
sends for a handler that returned without an answer is not taken for a success. -/
theorem batch_answers_read (maxFrame : Nat) (a : Answer) (h : a.OfBatch maxFrame)
    (render : Reason → Bytes) {resp : HttpResponse} (hresp : a.response render = some resp)
    {ep : Endpoint} (hwf : ep.rl.Wf) :
    (∃ res ep', doBatchPoll maxFrame ep resp = some (res, ep') ∧ a.Polled ep res ep') ∧
      (∃ res ep', doBatchSend ep resp = some (res, ep') ∧ a.Sent ep res ep') ∧
      ∀ k e, (∃ err, doBatchPoll maxFrame ep (resp.cut k e) = some (.error err, ep)) ∧
        ∃ err, doBatchSend ep (resp.cut k e) = some (.error err, ep) := by
  refine ⟨doBatchPoll_response h hresp hwf, doBatchSend_response h hresp hwf, fun k e => ⟨?_, ?_⟩⟩
  · apply doBatchPoll_cut
    cases a with
    | error status reason => cases hresp; exact .inr h
    | chunk recvOffset off bytes => cases hresp; exact .inl h.2.2.2
    | fault => cases hresp
    | _ => cases hresp; exact .inl (Nat.zero_le _)
  · exact doBatchSend_cut ep

/-- A fresh client gets two bytes. -/
theorem batch_answers_read_chunk :
    ∃ ep', doBatchPoll 8 (.new 0 true)
        { status := 200
          header := setBatchOffset (setBatchOffset .blank headerRecvOffset 0) headerSendOffset 0
          body := [7, 9] } = some (.ok true, ep') ∧ ep'.inp.buf = [7, 9] := by
  obtain ⟨res, ep', hpoll, hpolled⟩ := (batch_answers_read 8 (.chunk 0 0 [7, 9])
    ⟨by decide, by decide, by decide, by decide⟩ (fun _ => []) rfl (Endpoint.new_wf 0 true)).1
  cases hpolled with
  | took hear hack =>
    cases hear
    exact ⟨_, hpoll, rfl⟩
  | gap hear => cases hear
  | tookBadAck hear hack =>
    cases hear
    cases hack
  | empty ha => rcases ha with ha | ⟨n, ha⟩ <;> cases ha

end Pollmux
