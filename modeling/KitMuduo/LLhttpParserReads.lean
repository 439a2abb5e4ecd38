import KitMuduo.LLhttpParserFragments
import KitMuduo.RequestScanner

/-!
# Requests that arrive in several reads

`HttpServer::onMessage` parses as long as there are unread bytes and gets a
fresh context, and with it a fresh parser, behind every complete request.  The
requests of a stream are complete at the same points for all ways of cutting the
stream into reads, but they are the same requests only if the fragments that the
cuts leave are intact.
-/

namespace KitMuduo

open ReadCuts WhileLoop

variable {σ : Type*}

namespace LLhttpParser

variable {p : LLhttpParser σ} {llhttp : LLhttp σ} {buf : Buffer}

def withParser (p : LLhttpParser σ) (parser : σ) : LLhttpParser σ :=
  { p with parser := parser }

/-- The callbacks do not touch the state of llhttp. -/
theorem call_withParser (parser : σ) (callback : Callback) :
    (p.withParser parser).call callback =
      (p.call callback).withParser parser := by
  cases callback with
  | onMethod data => rfl
  | onStatus data statusCode => rfl
  | onStatusComplete =>
      by_cases response : p.type = .RespType <;>
        simp [call, onStatusComplete, withParser, setState, response]
  | onUrl data => rfl
  | onUrlComplete => rfl
  | onVersion data =>
      by_cases request : p.type = .ReqType <;>
        simp [call, onVersion, withParser, setRequest, setResponse, request]
  | onHeaderField data => rfl
  | onHeaderValue data => rfl
  | onHeadersComplete =>
      by_cases request : p.type = .ReqType <;>
        simp [call, onHeadersComplete, withParser, setRequest, setResponse,
          setState, request]
  | onBody data =>
      by_cases request : p.type = .ReqType <;>
        simp [call, onBody, withParser, setRequest, setResponse, request]
  | onMessageComplete => rfl

theorem foldl_withParser (parser : σ) (callbacks : List Callback) :
    callbacks.foldl call (p.withParser parser) =
      (callbacks.foldl call p).withParser parser := by
  induction callbacks generalizing p with
  | nil => rfl
  | cons callback callbacks ih =>
      rw [List.foldl_cons, call_withParser, ih, List.foldl_cons]

/-- A parser in the middle of a request. -/
structure Running (p : LLhttpParser σ) : Prop where
  request : p.type = .ReqType
  notPaused : p.isPaused = false
  notDone : p.context.state ≠ .kGotAll

theorem running_new (llhttp : LLhttp σ) : (new llhttp).Running :=
  ⟨rfl, rfl, nofun⟩

theorem Running.call (running : p.Running) {callback : Callback}
    (notLast : callback ≠ .onMessageComplete) : (p.call callback).Running := by
  obtain ⟨request, notPaused, notDone⟩ := running
  cases callback with
  | onMethod data => exact ⟨request, notPaused, notDone⟩
  | onStatus data statusCode => exact ⟨request, notPaused, notDone⟩
  | onStatusComplete =>
      have noResponse : p.type ≠ .RespType := by simp [request]
      rw [LLhttpParser.call, onStatusComplete, if_neg noResponse]
      exact ⟨request, notPaused, notDone⟩
  | onUrl data => exact ⟨request, notPaused, notDone⟩
  | onUrlComplete => exact ⟨request, notPaused, notDone⟩
  | onVersion data =>
      rw [LLhttpParser.call, onVersion, if_pos request]
      exact ⟨request, notPaused, notDone⟩
  | onHeaderField data => exact ⟨request, notPaused, notDone⟩
  | onHeaderValue data => exact ⟨request, notPaused, notDone⟩
  | onHeadersComplete =>
      rw [LLhttpParser.call, onHeadersComplete, if_pos request]
      refine ⟨request, notPaused, ?_⟩
      intro done
      cases done
  | onBody data =>
      rw [LLhttpParser.call, onBody_request request]
      exact ⟨request, notPaused, notDone⟩
  | onMessageComplete => exact absurd rfl notLast

theorem Running.foldl (running : p.Running) {callbacks : List Callback}
    (notLast : .onMessageComplete ∉ callbacks) :
    (callbacks.foldl LLhttpParser.call p).Running := by
  induction callbacks generalizing p with
  | nil => exact running
  | cons callback callbacks ih =>
      rw [List.mem_cons, not_or] at notLast
      exact ih (running.call (Ne.symm notLast.1)) notLast.2

theorem Running.withParser (running : p.Running) (parser : σ) :
    (p.withParser parser).Running :=
  ⟨running.request, running.notPaused, running.notDone⟩

theorem Running.setType (running : p.Running) : p.setType .ReqType = p := by
  rw [LLhttpParser.setType, ← running.request]

/-- The bytes leave the request incomplete. -/
theorem Running.parse_ok (running : p.Running) {t : σ}
    {callbacks : List Callback}
    (executed : llhttp.llhttp_execute p.parser buf.readable =
      ⟨t, callbacks, .HPE_OK, none⟩) :
    p.parseRequest llhttp buf =
      (true, (callbacks.foldl LLhttpParser.call p).withParser t,
        buf.reset buf.readable.length) := by
  have notPaused : ¬ p.isPaused = true := by simp [running.notPaused]
  rw [parseRequest, running.setType, parse, if_neg notPaused]
  simp only [executed, consumedLen]
  rw [← foldl_withParser]
  rfl

/-- The bytes up to `consumed` complete the request. -/
theorem Running.parse_paused (running : p.Running) {t : σ}
    {callbacks : List Callback} {consumed : Nat}
    (executed : llhttp.llhttp_execute p.parser buf.readable =
      ⟨t, callbacks, .HPE_PAUSED, some consumed⟩)
    (within : consumed ≤ buf.readable.length) :
    p.parseRequest llhttp buf =
      (true, { (callbacks.foldl LLhttpParser.call p).withParser t with
        isPaused := true }, buf.reset consumed) := by
  have position : consumedLen (some (consumed : Int)) buf.readable.length =
      consumed := by
    simp only [consumedLen]
    rw [if_pos ⟨Int.natCast_nonneg _, Int.ofNat_le.mpr within⟩, Int.toNat_natCast]
  have notPaused : ¬ p.isPaused = true := by simp [running.notPaused]
  rw [parseRequest, running.setType, parse, if_neg notPaused]
  simp only [executed, position]
  rw [← foldl_withParser]
  rfl

end LLhttpParser

/-- A connection that receives requests: its parser and its buffer, the number
of bytes received, the complete requests with the numbers of bytes up to their
ends, and whether a request was rejected. -/
structure RequestStream (σ : Type*) where
  parser : LLhttpParser σ
  buf : Buffer
  received : Nat := 0
  completed : List (HttpRequest × Nat) := []
  rejected : Bool := false
  hasMore : Bool := false
  deriving DecidableEq

namespace RequestStream

def new (llhttp : LLhttp σ) : RequestStream σ where
  parser := .new llhttp
  buf := .new Buffer.kInitSize

/-- A read arrives, and `onMessage` begins. -/
def receive (s : RequestStream σ) (read : Bytes) : RequestStream σ :=
  { s with
    buf := s.buf.append read
    received := s.received + read.length
    hasMore := true }

/-- The condition of the loop in `onMessage`; the flag is down when the loop
was left. -/
def more (s : RequestStream σ) : Bool :=
  s.hasMore && (0 < s.buf.readableBytes : Bool)

/-- The body of the loop.  A bad request ends `onMessage`, an incomplete one
ends the loop; behind a complete one there is a fresh context. -/
def parseNext (llhttp : LLhttp σ) (s : RequestStream σ) : RequestStream σ :=
  let (ok, parser, buf) := s.parser.parseRequest llhttp s.buf
  if ok = false then
    { s with parser := parser, buf := buf, rejected := true, hasMore := false }
  else if parser.context.gotAll = false then
    { s with parser := parser, buf := buf, hasMore := false }
  else
    { s with
      parser := .new llhttp
      buf := buf
      completed := s.completed ++
        [(parser.context.request, s.received - buf.readableBytes)] }

/-- The reads one after the other, with at most `turns` turns of the loop for
each of them. -/
def feed (llhttp : LLhttp σ) (turns : Nat) :
    List Bytes → RequestStream σ → Option (RequestStream σ)
  | [], s => some s
  | read :: reads, s =>
      (run more (parseNext llhttp) turns (s.receive read)).bind
        (feed llhttp turns reads)

/-- The requests that are complete after some reads, and where they end. -/
def requests (llhttp : LLhttp σ) (turns : Nat) (reads : List Bytes) :
    Option (List (HttpRequest × Nat)) :=
  (feed llhttp turns reads (new llhttp)).map completed

/-- The requests of some deliveries, of which the first begins at `start`. -/
def completions : Nat → List Delivery → List (HttpRequest × Nat)
  | _, [] => []
  | start, d :: deliveries =>
      (d.fragments.assembled, start + d.request.bytes.length) ::
        completions (start + d.request.bytes.length) deliveries

variable {llhttp : LLhttp σ} {s : RequestStream σ} {turns left position : Nat}
  {unread : Bytes} {reads : List Bytes}

/-- The loop is running, the first `position` bytes of the stream are parsed
and the bytes `unread` are in the buffer. -/
structure At (s : RequestStream σ) (unread : Bytes) (position : Nat) : Prop where
  valid : s.buf.Valid
  readable : s.buf.readable = unread
  hasMore : s.hasMore = true
  received : s.received = position + unread.length

theorem At.more_iff (here : s.At unread position) :
    s.more = true ↔ unread ≠ [] := by
  rw [more, here.hasMore, ← Buffer.readable_length here.valid, here.readable]
  simp [List.length_pos_iff]

theorem receive_at (valid : s.buf.Valid) (empty : s.buf.readable = [])
    (received : s.received = position) (read : Bytes) :
    (s.receive read).At read position where
  valid := Buffer.append_valid valid read
  readable := by
    rw [receive, Buffer.append_readable valid, empty, List.nil_append]
  hasMore := rfl
  received := by rw [receive, received]

/-- What is left of the loop for one read, and the reads behind it. -/
def finish (llhttp : LLhttp σ) (turns left : Nat) (s : RequestStream σ)
    (reads : List Bytes) : Option (RequestStream σ) :=
  (run more (parseNext llhttp) left s).bind (feed llhttp turns reads)

theorem finish_of_more (goesOn : s.more = true) :
    finish llhttp turns (left + 1) s reads =
      finish llhttp turns left (parseNext llhttp s) reads := by
  rw [finish, finish, run_succ goesOn]

theorem finish_of_not_more (done : s.more = false) :
    finish llhttp turns left s reads = feed llhttp turns reads s := by
  rw [finish, run_of_not_more done, Option.bind_some]

/-- The unread bytes leave the request incomplete. -/
theorem At.parseNext_ok (here : s.At unread position)
    (running : s.parser.Running) {t : σ} {callbacks : List Callback}
    (executed : llhttp.llhttp_execute s.parser.parser unread =
      ⟨t, callbacks, .HPE_OK, none⟩)
    (notLast : .onMessageComplete ∉ callbacks) :
    parseNext llhttp s =
      { s with
        parser := (callbacks.foldl LLhttpParser.call s.parser).withParser t
        buf := s.buf.reset unread.length
        hasMore := false } := by
  have parsed := running.parse_ok (here.readable ▸ executed)
  have notDone : ((callbacks.foldl LLhttpParser.call s.parser).withParser
      t).context.gotAll = false :=
    decide_eq_false ((running.foldl notLast).withParser t).notDone
  rw [parseNext, parsed]
  simp only [Bool.true_eq_false, if_false, notDone, if_true, here.readable]

/-- The unread bytes begin with the end of the request. -/
theorem At.parseNext_paused {last rest : Bytes}
    (here : s.At (last ++ rest) position) (running : s.parser.Running) {t : σ}
    {callbacks : List Callback}
    (executed : llhttp.llhttp_execute s.parser.parser (last ++ rest) =
      ⟨t, callbacks ++ [.onMessageComplete], .HPE_PAUSED, some last.length⟩) :
    parseNext llhttp s =
      { s with
        parser := .new llhttp
        buf := s.buf.reset last.length
        completed := s.completed ++
          [((callbacks.foldl LLhttpParser.call s.parser).context.request,
            position + last.length)] } := by
  have within : last.length ≤ s.buf.readable.length := by
    rw [here.readable, List.length_append]
    omega
  have parsed := running.parse_paused (here.readable ▸ executed) within
  have unread : (s.buf.reset last.length).readableBytes = rest.length := by
    rw [← Buffer.readable_length (Buffer.reset_valid here.valid _),
      Buffer.reset_of_readable here.valid here.readable]
  have consumed : s.received - rest.length = position + last.length := by
    rw [here.received, List.length_append]
    omega
  rw [parseNext, parsed]
  simp only [List.foldl_append, List.foldl_cons, List.foldl_nil]
  simp only [Bool.true_eq_false, if_false, unread, consumed]
  rfl

/-- When the loop has come to its end, the next read is received. -/
theorem finish_of_done (llhttp : LLhttp σ) (turns left : Nat)
    (done : s.more = false) (valid : s.buf.Valid)
    (empty : s.buf.readable = []) (received : s.received = position)
    (front : List Bytes) (next : Bytes) (reads : List Bytes) :
    ∃ first others, front ++ next :: reads = first :: others ∧
      finish llhttp turns left s (front ++ next :: reads) =
        finish llhttp turns turns (s.receive first) others ∧
      (s.receive first).At first position := by
  obtain ⟨first, others, split⟩ :
      ∃ first others, front ++ next :: reads = first :: others := by
    cases front with
    | nil => exact ⟨next, reads, rfl⟩
    | cons first front => exact ⟨first, front ++ next :: reads, rfl⟩
  refine ⟨first, others, split, ?_, receive_at valid empty received first⟩
  rw [finish_of_not_more done, split]
  rfl

/-- Reads that leave the request incomplete are parsed one by one, up to the
read behind them. -/
theorem finish_of_partway {a b : σ} {front : List Bytes}
    {callbacks : List Callback} (partway : llhttp.Partway a front callbacks b)
    (notLast : .onMessageComplete ∉ callbacks) {first next : Bytes}
    {others : List Bytes} (split : front ++ next :: reads = first :: others)
    (here : s.At first position) (running : s.parser.Running)
    (engine : s.parser.parser = a) (leftOver : 0 < left) (turnsLeft : 0 < turns) :
    ∃ s' left', finish llhttp turns left s others =
        finish llhttp turns left' s' reads ∧
      s'.At next (position + front.flatten.length) ∧
      s'.completed = s.completed ∧
      s'.parser =
        (callbacks.foldl LLhttpParser.call s.parser).withParser b ∧
      (left' = left ∨ left' = turns) := by
  induction partway generalizing s first others position left with
  | nil =>
      obtain ⟨rfl, rfl⟩ := List.cons.inj split
      subst engine
      exact ⟨s, left, rfl, here, rfl, rfl, Or.inl rfl⟩
  | @empty a b front callbacks partway ih =>
      rw [List.cons_append, List.cons.injEq] at split
      obtain ⟨rfl, rfl⟩ := split
      have done : s.more = false := by simp [← Bool.not_eq_true, here.more_iff]
      obtain ⟨first', others', split', goesOn, here'⟩ :=
        finish_of_done llhttp turns left done here.valid here.readable
          here.received front next reads
      obtain ⟨s', left', result, at', completed, parser, which⟩ :=
        ih notLast split' here' running engine turnsLeft
      refine ⟨s', left', goesOn.trans result, ?_, completed, parser, ?_⟩
      · simpa using at'
      · exact Or.inr (which.elim id id)
  | @cons a t u read front callbacks later nonempty executed partway ih =>
      rw [List.cons_append, List.cons.injEq] at split
      obtain ⟨rfl, rfl⟩ := split
      subst engine
      rw [List.mem_append, not_or] at notLast
      obtain ⟨left, rfl⟩ := Nat.exists_eq_add_of_lt leftOver
      rw [Nat.zero_add, finish_of_more (here.more_iff.mpr nonempty),
        here.parseNext_ok running executed notLast.1]
      have empty : (s.buf.reset read.length).readable = [] := by
        apply Buffer.reset_of_readable here.valid
        rw [here.readable, List.append_nil]
      obtain ⟨first', others', split', goesOn, here'⟩ :=
        finish_of_done llhttp turns left (s := { s with
            parser := (callbacks.foldl LLhttpParser.call s.parser).withParser t
            buf := s.buf.reset read.length
            hasMore := false }) rfl (Buffer.reset_valid here.valid _) empty
          here.received front next reads
      obtain ⟨s', left', result, at', completed, parser, which⟩ :=
        ih notLast.2 split' here' ((running.foldl notLast.1).withParser t) rfl
          turnsLeft
      refine ⟨s', left', goesOn.trans result, ?_, completed, ?_, ?_⟩
      · simpa [Nat.add_assoc] using at'
      · rw [parser, List.foldl_append]
        exact (congrArg (fun p => LLhttpParser.withParser p u)
          (LLhttpParser.foldl_withParser t later)).trans rfl
      · exact Or.inr (which.elim id id)

theorem deliveries_eq_nil {deliveries : List Delivery}
    (delivers : llhttp.Delivers deliveries []) : deliveries = [] := by
  generalize noReads : ([] : List Bytes) = reads at delivers
  cases delivers with
  | nil => rfl
  | empty => cases noReads
  | request => simp at noReads

/-- The loop ends for every read, and the requests are complete where their
bytes end. -/
theorem finish_of_delivers {deliveries : List Delivery}
    (delivers : llhttp.Delivers deliveries reads) {first : Bytes}
    {others : List Bytes} (split : reads = first :: others)
    (here : s.At first position) (fresh : s.parser = .new llhttp)
    (leftOver : deliveries.length < left)
    (turnsLeft : deliveries.length < turns) :
    (finish llhttp turns left s others).map completed =
      some (s.completed ++ completions position deliveries) := by
  induction delivers generalizing s first others position left with
  | nil => cases split
  | @empty deliveries reads delivers ih =>
      obtain ⟨rfl, rfl⟩ := List.cons.inj split
      have done : s.more = false := by simp [← Bool.not_eq_true, here.more_iff]
      cases reads with
      | nil =>
          rw [finish_of_not_more done, deliveries_eq_nil delivers]
          simp [feed, completions]
      | cons next reads =>
          rw [finish_of_not_more done]
          exact ih rfl (receive_at here.valid here.readable here.received next)
            fresh turnsLeft turnsLeft
  | @request d deliveries front reads last rest a t callbacks ending partway
      nonempty executed bytes delivered cutFrom delivers ih =>
      have present := cutFrom.present
      have notLast : .onMessageComplete ∉ callbacks ++ ending :=
        delivered ▸ d.fragments.onMessageComplete_not_mem
      have parserHere : s.parser.Running :=
        fresh ▸ LLhttpParser.running_new llhttp
      obtain ⟨s', left', result, at', completed, parser, which⟩ :=
        finish_of_partway (s := s) partway
          (fun member => notLast (List.mem_append_left _ member)) split here
          parserHere (fresh ▸ rfl) (Nat.zero_lt_of_lt leftOver)
          (Nat.zero_lt_of_lt turnsLeft)
      have running : s'.parser.Running := by
        rw [parser]
        exact (parserHere.foldl fun member =>
          notLast (List.mem_append_left _ member)).withParser a
      have engine : s'.parser.parser = a := by
        rw [parser]
        rfl
      have enough : deliveries.length + 1 < left' := by
        rcases which with rfl | rfl
        · exact leftOver
        · exact turnsLeft
      obtain ⟨left', rfl⟩ : ∃ fewer, left' = fewer + 1 :=
        ⟨left' - 1, by omega⟩
      have goesOn : s'.more = true :=
        at'.more_iff.mpr (List.append_ne_nil_of_left_ne_nil nonempty rest)
      have request : (ending.foldl LLhttpParser.call
          s'.parser).context.request = d.fragments.assembled := by
        rw [parser, LLhttpParser.foldl_withParser, ← List.foldl_append,
          delivered, fresh]
        exact present.request_eq rfl rfl rfl
      have consumed : position + front.flatten.length + last.length =
          position + d.request.bytes.length := by
        rw [← bytes, List.length_append, Nat.add_assoc]
      rw [result, finish_of_more goesOn,
        at'.parseNext_paused running (engine ▸ executed), request, completed,
        consumed]
      have behind : At { s' with
          parser := .new llhttp
          buf := s'.buf.reset last.length
          completed := s.completed ++ [(d.fragments.assembled,
            position + d.request.bytes.length)] } rest
          (position + d.request.bytes.length) := by
        refine ⟨Buffer.reset_valid at'.valid _,
          Buffer.reset_of_readable at'.valid at'.readable, at'.hasMore, ?_⟩
        rw [← consumed]
        exact at'.received.trans (by rw [List.length_append, ← Nat.add_assoc])
      rw [ih rfl behind rfl (Nat.lt_of_succ_lt_succ enough)
        (Nat.lt_of_succ_lt turnsLeft), completions, List.append_assoc]
      rfl

/-- The requests of a stream of deliveries. -/
theorem requests_of_delivers {deliveries : List Delivery}
    (delivers : llhttp.Delivers deliveries reads)
    (enough : deliveries.length < turns) :
    requests llhttp turns reads = some (completions 0 deliveries) := by
  have here : (new llhttp).buf.readable = [] := Buffer.new_readable _
  cases reads with
  | nil =>
      rw [deliveries_eq_nil delivers]
      rfl
  | cons first others =>
      exact finish_of_delivers delivers rfl
        (receive_at (Buffer.new_valid _) here rfl first) rfl enough enough

/-- The reads make the same requests as the stream in one read, complete at the
same points. -/
def SameRequests (llhttp : LLhttp σ) (turns : Nat) (reads : List Bytes) :
    Prop :=
  ∃ completed, requests llhttp turns reads = some completed ∧
    requests llhttp turns [reads.flatten] = some completed

theorem completions_eq_iff (start : Nat) (deliveries : List Delivery) :
    completions start deliveries =
        completions start (deliveries.map Delivery.inOnePiece) ↔
      ∀ d ∈ deliveries, d.fragments.Intact := by
  induction deliveries generalizing start with
  | nil => simp [completions]
  | cons d deliveries ih =>
      have request : d.inOnePiece.request = d.request := rfl
      have fragments : d.inOnePiece.fragments = d.fragments.joined := rfl
      rw [List.map_cons, completions, completions, request, fragments,
        List.cons.injEq, ih, Prod.mk.injEq, List.forall_mem_cons,
        d.fragments.assembled_eq_iff]
      simp

/-- However the stream is cut, the requests end at the same points; they are
the same requests exactly if all of them are delivered in intact fragments. -/
theorem sameRequests_iff {deliveries : List Delivery}
    (inReads : llhttp.Delivers deliveries reads)
    (inOnePiece : llhttp.Delivers (deliveries.map Delivery.inOnePiece)
      [reads.flatten])
    (enough : deliveries.length < turns) :
    SameRequests llhttp turns reads ↔
      ∀ d ∈ deliveries, d.fragments.Intact := by
  have enough' : (deliveries.map Delivery.inOnePiece).length < turns := by
    rwa [List.length_map]
  rw [SameRequests, requests_of_delivers inReads enough,
    requests_of_delivers inOnePiece enough', ← completions_eq_iff 0]
  constructor
  · rintro ⟨completed, first, second⟩
    exact Option.some.inj (first.trans second.symm)
  · intro same
    exact ⟨_, rfl, congrArg some same.symm⟩

/-- A request for `/index` with one header. -/
def indexRequest : CompleteRequest where
  bytes := ascii "GET /index HTTP/1.1\r\nHost: kit\r\n\r\n"
  method := ⟨0, 3⟩
  url := ⟨4, 6⟩
  version := ⟨16, 3⟩
  headers := [(⟨21, 4⟩, ⟨27, 3⟩)]
  body := []
  trailers := []

def indexCutInUrl : Delivery where
  request := indexRequest
  fragments := {
    method := [ascii "GET"]
    url := [ascii "/in", ascii "dex"]
    version := [ascii "1.1"]
    headers := [([ascii "Host"], [ascii "k", ascii "it"])]
    body := []
    trailers := [] }

def indexCutInMethod : Delivery where
  request := indexRequest
  fragments := {
    method := [ascii "GE", ascii "T"]
    url := [ascii "/index"]
    version := [ascii "1.1"]
    headers := [([ascii "Host"], [ascii "kit"])]
    body := []
    trailers := [] }

/-- Reads that cut the request in its url and in its header value. -/
def urlCutReads : List Bytes :=
  [ascii "GET /in", ascii "dex HTTP/1.1\r\nHost: k", ascii "it\r\n\r\n"]

/-- Reads that cut the request in its method. -/
def methodCutReads : List Bytes :=
  [ascii "GE", ascii "T /index HTTP/1.1\r\nHost: kit\r\n\r\n"]

theorem index_inOnePiece :
    RequestScanner.llhttp.Delivers [indexCutInUrl.inOnePiece]
      [indexRequest.bytes] := by
  refine @LLhttp.Delivers.request _ _ _ _ [] [] indexRequest.bytes [] _ _ _ _
    .nil (by decide) rfl rfl rfl ?_ (.empty .nil)
  exact ⟨⟨by decide, rfl⟩, ⟨by decide, rfl⟩, ⟨by decide, rfl⟩,
    .cons ⟨⟨by decide, rfl⟩, ⟨by decide, rfl⟩⟩ .nil, .nil, .nil⟩

theorem index_cutInUrl :
    RequestScanner.llhttp.Delivers [indexCutInUrl] urlCutReads := by
  refine @LLhttp.Delivers.request _ _ _ _
    [ascii "GET /in", ascii "dex HTTP/1.1\r\nHost: k"] [] (ascii "it\r\n\r\n") []
    _ _ _ _ (.cons (by decide) rfl (.cons (by decide) rfl .nil)) (by decide)
    rfl rfl rfl ?_ (.empty .nil)
  exact ⟨⟨by decide, rfl⟩, ⟨by decide, rfl⟩, ⟨by decide, rfl⟩,
    .cons ⟨⟨by decide, rfl⟩, ⟨by decide, rfl⟩⟩ .nil, .nil, .nil⟩

theorem index_cutInMethod :
    RequestScanner.llhttp.Delivers [indexCutInMethod] methodCutReads := by
  refine @LLhttp.Delivers.request _ _ _ _ [ascii "GE"] []
    (ascii "T /index HTTP/1.1\r\nHost: kit\r\n\r\n") [] _ _ _ _
    (.cons (by decide) rfl .nil) (by decide) rfl rfl rfl ?_ (.empty .nil)
  exact ⟨⟨by decide, rfl⟩, ⟨by decide, rfl⟩, ⟨by decide, rfl⟩,
    .cons ⟨⟨by decide, rfl⟩, ⟨by decide, rfl⟩⟩ .nil, .nil, .nil⟩

/-- Cuts in a url and a header value do no harm. -/
theorem sameRequests_urlCut :
    SameRequests RequestScanner.llhttp 2 urlCutReads := by
  refine (sameRequests_iff index_cutInUrl
    index_inOnePiece (by decide)).mpr ?_
  rw [List.forall_mem_singleton]
  exact ⟨by decide, by decide, by decide, by simp [indexCutInUrl]⟩

/-- A cut in the method does. -/
theorem not_sameRequests_methodCut :
    RequestScanner.llhttp.Delivers [indexCutInMethod] methodCutReads ∧
      RequestScanner.llhttp.Delivers [indexCutInMethod.inOnePiece]
        [methodCutReads.flatten] ∧
      ¬ SameRequests RequestScanner.llhttp 2 methodCutReads := by
  refine ⟨index_cutInMethod, index_inOnePiece, ?_⟩
  rintro ⟨completed, inReads, inOnePiece⟩
  rw [requests_of_delivers index_cutInMethod (by decide)] at inReads
  have whole : requests RequestScanner.llhttp 2 [methodCutReads.flatten] =
      some (completions 0 [indexCutInMethod.inOnePiece]) :=
    requests_of_delivers index_inOnePiece (by decide)
  rw [whole, ← inReads] at inOnePiece
  have methods := congrArg
    (fun requests => requests.map fun done => done.1.method)
    (Option.some.inj inOnePiece)
  revert methods
  decide

end RequestStream

end KitMuduo
