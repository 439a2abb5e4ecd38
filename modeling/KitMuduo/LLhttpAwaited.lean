import KitMuduo.LLhttpParserReads

/-!
# What a parser has still to deliver

Between two turns of the loop in `onMessage` the parser is in front of a request
or within one, and some bytes of the last read are unread.  A turn takes in
bytes that leave the request incomplete, or those that complete it.  The
requests to come stay the same, whatever the reads that are yet to bring them.
-/

namespace KitMuduo

variable {σ : Type*}

/-- The context in which a request is complete. -/
def HttpContext.ofRequest (request : HttpRequest) : HttpContext where
  state := .kGotAll
  request := request

/-- The callbacks for a request leave the response alone. -/
theorem RequestFragments.Present.response_eq {f : RequestFragments}
    (present : f.Present) {p : LLhttpParser σ} (request : p.type = .ReqType) :
    (f.callbacks.foldl LLhttpParser.call p).context.response =
      p.context.response := by
  let line := ((p.onMethod (f.method.getLastD [])).onUrl
    f.url.flatten).onUrlComplete.onVersion (f.version.getLastD [])
  have lineIs : line = (((p.onMethod (f.method.getLastD [])).onUrl
      f.url.flatten).onUrlComplete).setRequest _ := if_pos request
  have lineType : line.type = .ReqType := by
    rw [lineIs]
    exact request
  have linesType : (f.headers.foldl LLhttpParser.addLine line).type =
      .ReqType := (LLhttpParser.foldl_addLine_type f.headers).trans lineType
  have headersType := LLhttpParser.onHeadersComplete_type.trans linesType
  rw [present.foldl_callbacks, LLhttpParser.foldl_addLine_context,
    LLhttpParser.foldl_onBody headersType]
  change (f.headers.foldl LLhttpParser.addLine
    line).onHeadersComplete.context.response = _
  rw [LLhttpParser.onHeadersComplete, if_pos linesType]
  change (f.headers.foldl LLhttpParser.addLine line).context.response = _
  rw [LLhttpParser.foldl_addLine_context, lineIs]
  rfl

namespace LLhttp

/-- From the state, which has given the callbacks `before`, the stream of reads
brings the rest of the callbacks.  Behind the last byte of the request come the
bytes `rest` of the same read and the reads `later`. -/
inductive Completes (llhttp : LLhttp σ) (callbacks : List Callback)
    (rest : Bytes) (later : List Bytes) :
    σ → List Callback → List Bytes → Prop
  | last {s t : σ} {before ending : List Callback} {last : Bytes}
      (nonempty : last ≠ [])
      (executed : llhttp.llhttp_execute s (last ++ rest) =
        ⟨t, ending ++ [.onMessageComplete], .HPE_PAUSED, some last.length⟩)
      (all : before ++ ending = callbacks) :
      Completes llhttp callbacks rest later s before ((last ++ rest) :: later)
  | empty {s : σ} {before : List Callback} {reads : List Bytes}
      (completes : Completes llhttp callbacks rest later s before reads) :
      Completes llhttp callbacks rest later s before ([] :: reads)
  | more {s t : σ} {before now : List Callback} {read : Bytes}
      {reads : List Bytes} (nonempty : read ≠ [])
      (executed : llhttp.llhttp_execute s read = ⟨t, now, .HPE_OK, none⟩)
      (completes :
        Completes llhttp callbacks rest later t (before ++ now) reads) :
      Completes llhttp callbacks rest later s before (read :: reads)

variable {llhttp : LLhttp σ} {callbacks : List Callback} {rest : Bytes}
  {later : List Bytes}

theorem completes_of_partway {s t u : σ} {front : List Bytes} {last : Bytes}
    {before now ending : List Callback}
    (partway : llhttp.Partway s front now t) (nonempty : last ≠ [])
    (executed : llhttp.llhttp_execute t (last ++ rest) =
      ⟨u, ending ++ [.onMessageComplete], .HPE_PAUSED, some last.length⟩)
    (all : before ++ now ++ ending = callbacks) :
    llhttp.Completes callbacks rest later s before
      (front ++ (last ++ rest) :: later) := by
  induction partway generalizing before with
  | nil => exact .last nonempty executed (by rw [← all, List.append_nil])
  | empty _ ih => exact .empty (ih executed all)
  | cons some taken _ ih =>
      apply Completes.more some taken
      apply ih executed
      rw [← all, List.append_assoc before]

theorem Completes.before_prefix {s : σ} {before : List Callback}
    {reads : List Bytes}
    (completes : llhttp.Completes callbacks rest later s before reads) :
    before <+: callbacks := by
  induction completes with
  | last _ _ all => exact all ▸ List.prefix_append _ _
  | empty _ ih => exact ih
  | more _ _ _ ih => exact (List.prefix_append _ _).trans ih

/-- An empty read brings nothing. -/
theorem Completes.of_empty {s : σ} {before : List Callback}
    {reads : List Bytes}
    (completes : llhttp.Completes callbacks rest later s before ([] :: reads)) :
    llhttp.Completes callbacks rest later s before reads := by
  generalize all : [] :: reads = stream at completes
  cases completes with
  | last nonempty executed _ =>
      have none := (List.cons.inj all).1
      exact absurd (List.append_eq_nil_iff.mp none.symm).1 nonempty
  | empty completes =>
      obtain ⟨_, rfl⟩ := List.cons.inj all
      exact completes
  | more nonempty executed completes =>
      exact absurd (List.cons.inj all).1.symm nonempty

end LLhttp

namespace LLhttpParser

/-- The parser, the unread bytes and the reads to come deliver these requests:
nothing is unread in front of the first of them, or the parser has got some of
its callbacks. -/
inductive Awaits (llhttp : LLhttp σ) :
    LLhttpParser σ → Bytes → List Bytes → List Delivery → Prop
  | between {reads : List Bytes} {deliveries : List Delivery}
      (delivers : llhttp.Delivers deliveries reads) :
      Awaits llhttp (.new llhttp) [] reads deliveries
  | within {d : Delivery} {deliveries : List Delivery} {unread rest : Bytes}
      {reads later : List Bytes} {s : σ} {before : List Callback}
      (completes : llhttp.Completes d.fragments.callbacks rest later s before
        (unread :: reads))
      (present : d.fragments.Present)
      (delivers : llhttp.Delivers deliveries (rest :: later)) :
      Awaits llhttp ((before.foldl call (.new llhttp)).withParser s) unread
        reads (d :: deliveries)

variable {llhttp : LLhttp σ} {p : LLhttpParser σ} {buf : Buffer}
  {unread : Bytes} {reads : List Bytes} {deliveries : List Delivery}

theorem awaits_of_delivers
    (delivers : llhttp.Delivers deliveries (unread :: reads)) :
    Awaits llhttp (.new llhttp) unread reads deliveries := by
  generalize all : unread :: reads = stream at delivers
  cases delivers with
  | nil => cases all
  | empty delivers =>
      obtain ⟨rfl, rfl⟩ := List.cons.inj all
      exact .between delivers
  | @request d _ _ later _ rest _ _ _ _ partway nonempty executed bytes
      delivered cutFrom delivers =>
      have completes : llhttp.Completes d.fragments.callbacks rest later
          llhttp.llhttp_init [] (unread :: reads) := by
        rw [all]
        exact LLhttp.completes_of_partway partway nonempty executed delivered
      exact .within completes cutFrom.present delivers

/-- The next read comes when nothing is unread. -/
theorem Awaits.receive {read : Bytes}
    (awaits : Awaits llhttp p [] (read :: reads) deliveries) :
    Awaits llhttp p read reads deliveries := by
  generalize nothing : ([] : Bytes) = unread at awaits
  generalize all : read :: reads = stream at awaits
  cases awaits with
  | between delivers =>
      subst all
      exact awaits_of_delivers delivers
  | within completes present delivers =>
      subst nothing all
      exact .within completes.of_empty present delivers

/-- When no read is to come, nothing is awaited. -/
theorem Awaits.done (awaits : Awaits llhttp p [] [] deliveries) :
    deliveries = [] := by
  generalize nothing : ([] : Bytes) = unread at awaits
  generalize noReads : ([] : List Bytes) = reads at awaits
  cases awaits with
  | between delivers =>
      subst noReads
      exact RequestStream.deliveries_eq_nil delivers
  | within completes present delivers =>
      subst nothing noReads
      cases completes.of_empty

/-- What a turn of the loop can come to: all that is unread is taken in, or the
first of the requests is complete. -/
inductive Turned (llhttp : LLhttp σ) (reads : List Bytes) :
    List Delivery → Bool × LLhttpParser σ × Buffer → Prop
  | incomplete {deliveries : List Delivery} {p : LLhttpParser σ} {buf : Buffer}
      (notAll : p.context.gotAll = false) (valid : buf.Valid)
      (empty : buf.readable = [])
      (awaits : Awaits llhttp p [] reads deliveries) :
      Turned llhttp reads deliveries (true, p, buf)
  | complete {d : Delivery} {deliveries : List Delivery} {p : LLhttpParser σ}
      {buf : Buffer} (context : p.context = .ofRequest d.fragments.assembled)
      (valid : buf.Valid)
      (awaits : Awaits llhttp (.new llhttp) buf.readable reads deliveries) :
      Turned llhttp reads (d :: deliveries) (true, p, buf)

/-- A parser that has got some callbacks of a request is within it. -/
theorem running_foldl {f : RequestFragments} {before : List Callback}
    (earlier : before <+: f.callbacks) (s : σ) :
    ((before.foldl call (.new llhttp)).withParser s).Running := by
  apply Running.withParser
  apply (running_new llhttp).foldl
  intro member
  exact f.onMessageComplete_not_mem (earlier.subset member)

/-- The parser has got all callbacks of a request. -/
theorem context_foldl (llhttp : LLhttp σ) {f : RequestFragments}
    (present : f.Present) :
    ((f.callbacks ++ [Callback.onMessageComplete]).foldl call
        (new llhttp)).context = .ofRequest f.assembled := by
  let p := f.callbacks.foldl call (new llhttp)
  have request : p.context.request = f.assembled :=
    present.request_eq rfl rfl rfl
  have response : p.context.response = {} := present.response_eq rfl
  rw [List.foldl_append, HttpContext.ofRequest, ← request]
  change { p.context with state := .kGotAll } = _
  rw [HttpContext.mk.injEq]
  exact ⟨rfl, rfl, response⟩

theorem Awaits.parseRequest
    (awaits : Awaits llhttp p buf.readable reads deliveries)
    (valid : buf.Valid) (some : buf.readable ≠ []) :
    Turned llhttp reads deliveries (p.parseRequest llhttp buf) := by
  generalize unreadIs : buf.readable = unread at awaits some
  cases awaits with
  | between delivers => exact absurd rfl some
  | @within d deliveries _ rest _ later s before completes present delivers =>
      have running : ((before.foldl call (.new llhttp)).withParser s).Running :=
        running_foldl completes.before_prefix s
      generalize stream : unread :: reads = whole at completes
      cases completes with
      | @last _ t _ ending last nonempty executed all =>
          obtain ⟨rfl, rfl⟩ := List.cons.inj stream
          have within : last.length ≤ buf.readable.length := by
            rw [unreadIs, List.length_append]
            omega
          rw [running.parse_paused (unreadIs ▸ executed) within,
            foldl_withParser, ← List.foldl_append, ← List.append_assoc, all]
          refine .complete ?_ (Buffer.reset_valid valid _) ?_
          · exact context_foldl llhttp present
          · rw [Buffer.reset_of_readable valid unreadIs]
            exact awaits_of_delivers delivers
      | empty completes => exact absurd (List.cons.inj stream).1 some
      | @more _ t _ now _ _ nonempty executed completes =>
          obtain ⟨rfl, rfl⟩ := List.cons.inj stream
          have stillRunning :
              (((before ++ now).foldl call (.new llhttp)).withParser
                t).Running := running_foldl completes.before_prefix t
          rw [running.parse_ok (unreadIs ▸ executed), foldl_withParser,
            ← List.foldl_append]
          refine .incomplete (decide_eq_false stillRunning.notDone)
            (Buffer.reset_valid valid _) ?_ ?_
          · rw [Buffer.reset_readable valid, List.drop_length]
          · exact .within (.empty completes) present delivers

end LLhttpParser

end KitMuduo
