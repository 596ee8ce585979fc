import SerialServer.Server.Mrs2s

/-!
# SerialServer.Server.Answers

What a client gets back for the bytes it sends.

The child's loop takes what one `read` returns for one request: there is no buffer in
which a partial request could wait for its end, and what follows a request in the same
read is not looked at. So a read is answered as the request it begins with
(`clientTurn_request`), and a client gets the answers to its requests, each once and in
order, when every request arrives in a read of its own.
-/

namespace SerialServer.Mrs2s

open Mrs2lib

/-- A valid query. -/
structure Request where
  bytes : List Byte
  isFrame : IsFrame bytes
  type : bytes.getD 0 0 = 0x50

/-- What one read returns when it starts with a whole query: the query, and what came
with it. -/
structure HeadRequest where
  request : Request
  rest : List Byte
  le : (request.bytes ++ rest).length ≤ 300

/-- The read of a query and of what came with it. -/
def HeadRequest.chunk (r : HeadRequest) : Chunk where
  bytes := r.request.bytes ++ r.rest
  pos := by
    have := r.request.isFrame.four_le
    simp
    omega
  le := r.le

/-- A query that arrives in a read of its own. -/
def Request.only (q : Request) : HeadRequest where
  request := q
  rest := []
  le := by
    have := q.isFrame.length_le
    simp
    omega

/-- The messages that answer a query with index `idx`. -/
def answers (m : Machine) (e : Eth0) (t : Fin 8 → PortStat) (idx : Byte) : List (List Byte) :=
  if m.lowByte idx = 0xff then bulkFrames m e t 8 else (singleReply m e t idx).toList

/-- Sending the messages one by one off the output buffer. -/
theorem sendBulk_putLens {sendOk : Nat → Bool} (hsend : ∀ i, sendOk i = true) (pout : Buf)
    (poutlen : Nat → Int) (fs : List (List Byte)) :
    sendBulk sendOk (pout.store 0 fs.flatten) (putLens fs poutlen) 0 (List.range fs.length) =
      (fs, true) := by
  refine taken_in_turn pout poutlen (C := fun p is post => sendBulk sendOk _ _ p is = (post, true))
    (fun _ => rfl) ?_
  intro p i is f post hlen hslice hrest
  rw [sendBulk, hlen, hslice, hsend, hrest]
  rfl

/-- A query that has reached `tcp50` is answered in full. -/
theorem answer_tcp50 (m : Machine) {env : TurnEnv} (hsend : ∀ i, env.sendOk i = true)
    {c : Child} (hrun : c.running = true) (pin : Buf) :
    let t := tcp50 m env.eth0 c.srv pin c.outbuf c.poutlen
    let c' := answer m env
      { c with buf := t.pin, outbuf := t.pout, poutlen := t.poutlen, srv := t.srv } t.op
    c'.sent = c.sent ++ answers m env.eth0 c.srv.gportStat (pin 1) ∧
      c'.srv.gportStat = c.srv.gportStat ∧ c'.running = true := by
  intro t c'
  by_cases hff : m.lowByte (pin 1) = 0xff
  · have hbulk := tcp50_bulk m env.eth0 c.srv hff c.outbuf c.poutlen
    simp only [Tcp.result, Prod.mk.injEq] at hbulk
    obtain ⟨hop, hout, hlens, hsrv⟩ := hbulk
    have hsends : sendBulk env.sendOk t.pout t.poutlen 0 (List.range 9) =
        (bulkFrames m env.eth0 c.srv.gportStat 8, true) := by
      show sendBulk env.sendOk (tcp50 m env.eth0 c.srv pin c.outbuf c.poutlen).pout
        (tcp50 m env.eth0 c.srv pin c.outbuf c.poutlen).poutlen 0 (List.range 9) = _
      rw [hout, hlens]
      exact sendBulk_putLens hsend c.outbuf c.poutlen _
    have hc' : c' = { c with
        buf := t.pin, outbuf := t.pout, poutlen := t.poutlen, srv := t.srv
        sent := c.sent ++ bulkFrames m env.eth0 c.srv.gportStat 8, running := true } := by
      show answer m env _ (tcp50 m env.eth0 c.srv pin c.outbuf c.poutlen).op = _
      rw [hop, answer, if_neg (by decide), if_pos rfl]
      dsimp only
      rw [hsends]
    rw [hc', answers, if_pos hff]
    refine ⟨rfl, ?_, rfl⟩
    show (tcp50 m env.eth0 c.srv pin c.outbuf c.poutlen).srv.gportStat = _
    rw [hsrv, getipEth0_gportStat]
  · have ht : t = _ := (if_neg hff : tcp50 m env.eth0 c.srv pin c.outbuf c.poutlen = _).trans
      (tcp50Single_eq ..)
    rw [answers, if_neg hff]
    cases hreply : singleReply m env.eth0 c.srv.gportStat (pin 1) with
    | none =>
      rw [hreply] at ht
      have hop : t.op = -1 := congrArg Tcp.op ht
      have hsrv : t.srv = c.srv := congrArg Tcp.srv ht
      have hc' : c' =
          { c with buf := t.pin, outbuf := t.pout, poutlen := t.poutlen, srv := t.srv } := by
        show answer m env _ t.op = _
        rw [hop, answer, if_neg (by decide), if_neg (by decide), if_neg (by decide)]
      rw [hc']
      exact ⟨by simp, congrArg Server.gportStat hsrv, hrun⟩
    | some f =>
      rw [hreply] at ht
      have hop : t.op = 0 := congrArg Tcp.op ht
      have hsrv : t.srv = afterSingle m env.eth0 c.srv (pin 1) := congrArg Tcp.srv ht
      have hlen : t.poutlen 0 = f.length := by
        rw [ht]
        exact Function.update_self 0 (f.length : Int) c.poutlen
      have hout : t.pout.slice 0 (t.poutlen 0).toNat = f := by
        rw [hlen, Int.toNat_natCast, ht]
        exact Buf.slice_store c.outbuf 0 f
      have hc' : c' = { c with
          buf := t.pin, outbuf := t.pout, poutlen := t.poutlen, srv := t.srv
          sent := c.sent ++ [t.pout.slice 0 (t.poutlen 0).toNat] } := by
        show answer m env _ t.op = _
        rw [hop, answer, if_pos rfl, if_neg (by simp [hsend])]
      rw [hc', hout]
      refine ⟨rfl, ?_, hrun⟩
      rw [hsrv, afterSingle_gportStat]

/-- **A read is answered as the query it begins with**, whatever comes after it and
whatever the receive buffer held. -/
theorem clientTurn_request (m : Machine) {env : TurnEnv} (hsend : ∀ i, env.sendOk i = true)
    {c : Child} (hrun : c.running = true) (r : HeadRequest) :
    let c' := clientTurn m env c (.data r.chunk)
    c'.sent = c.sent ++ answers m env.eth0 c.srv.gportStat (r.request.bytes.getD 1 0) ∧
      c'.srv.gportStat = c.srv.gportStat ∧ c'.running = true := by
  intro c'
  obtain ⟨⟨f, hf, htype⟩, rest, hle⟩ := r
  have h4 := hf.four_le
  have byte : ∀ i < f.length, c.buf.store 0 (f ++ rest) i = f.getD i 0 := by
    intro i hi
    rw [store_zero (by simp; omega), List.getD_append _ _ _ _ hi]
  have h0 : m.lowByte (c.buf.store 0 (f ++ rest) 0) = 0x50 := by
    rw [byte 0 (by omega), htype]
    exact (lowByte_eq_lit m _ (by decide)).2 rfl
  have ht := tcp2send_accepted (show (0 : Int) < (f ++ rest).length by simp; omega)
    (crcOk_of_isFrame m c.buf rest hf) env.eth0 c.srv c.outbuf c.poutlen
  rw [if_pos h0] at ht
  have ha := answer_tcp50 m hsend hrun (c.buf.store 0 (f ++ rest))
  rw [byte 1 (by omega), ← ht] at ha
  have hc' : c' = _ := if_neg (by simp [hrun])
  rw [hc']
  exact ha

/-- What one query is sent when it is handled alone, in a read of its own. -/
def answeredAlone (m : Machine) (env : TurnEnv) (c : Child) (q : Request) : List (List Byte) :=
  (clientTurn m env { c with sent := [] } (.data q.only.chunk)).sent

theorem answeredAlone_eq (m : Machine) {env : TurnEnv} (hsend : ∀ i, env.sendOk i = true)
    {c : Child} (hrun : c.running = true) (q : Request) :
    answeredAlone m env c q = answers m env.eth0 c.srv.gportStat (q.bytes.getD 1 0) :=
  (clientTurn_request m hsend (c := { c with sent := [] }) hrun q.only).1

/-- A child that has read `reads`, one after the other. -/
def clientRun (m : Machine) (env : TurnEnv) (c : Child) (reads : List Chunk) : Child :=
  reads.foldl (fun c d => clientTurn m env c (.data d)) c

/-- A client is sent the answers to the queries its reads begin with, in their order. -/
theorem clientRun_requests (m : Machine) {env : TurnEnv} (hsend : ∀ i, env.sendOk i = true)
    {c : Child} (hrun : c.running = true) (reads : List HeadRequest) :
    (clientRun m env c (reads.map HeadRequest.chunk)).sent =
      c.sent ++ reads.flatMap fun r =>
        answers m env.eth0 c.srv.gportStat (r.request.bytes.getD 1 0) := by
  unfold clientRun
  induction reads generalizing c with
  | nil => simp
  | cons r reads ih =>
    obtain ⟨hsent, htable, hrun'⟩ := clientTurn_request m hsend hrun r
    rw [List.map_cons, List.foldl_cons, ih hrun', hsent, htable, List.flatMap_cons,
      List.append_assoc]

/-- **Each read is answered once, as the query it begins with.** With one query in every
read each of them is answered exactly once, in order, as if it were handled alone. -/
theorem reads_answered (m : Machine) (env : TurnEnv) (hsend : ∀ i, env.sendOk i = true)
    (c : Child) (hrun : c.running = true) :
    (∀ reads : List HeadRequest, (clientRun m env c (reads.map HeadRequest.chunk)).sent =
        c.sent ++ reads.flatMap fun r => answeredAlone m env c r.request) ∧
      ∀ queries : List Request, (clientRun m env c (queries.map fun q => q.only.chunk)).sent =
        c.sent ++ queries.flatMap (answeredAlone m env c) := by
  have hreads : ∀ reads : List HeadRequest,
      (clientRun m env c (reads.map HeadRequest.chunk)).sent =
        c.sent ++ reads.flatMap fun r => answeredAlone m env c r.request := by
    intro reads
    rw [clientRun_requests m hsend hrun]
    simp only [answeredAlone_eq m hsend hrun]
  refine ⟨hreads, fun queries => ?_⟩
  have honly := hreads (queries.map Request.only)
  rw [List.map_map, List.flatMap_map] at honly
  exact honly

/-- The query of port `i`, as the sample client builds it. -/
def portQuery (i : Fin 8) : Request where
  bytes := withCheck [0x50, portIndex i, 0x01, 0x00]
  isFrame := isFrame_withCheck rfl
  type := rfl

/-- A freshly accepted client of a server that has heard nothing yet. -/
def freshChild : Child where
  buf := Buf.ofList []
  outbuf := Buf.ofList []
  poutlen := fun _ => 0
  srv := ⟨fun _ => initRecord, 0, 0, [], [], none, none, []⟩
  sent := []
  running := true

theorem reads_answered_fresh :
    let m : Machine := ⟨.big, .unsigned⟩
    let env : TurnEnv := ⟨⟨0, 0⟩, ⟨true, true⟩, fun _ => true⟩
    (∀ reads : List HeadRequest, (clientRun m env freshChild (reads.map HeadRequest.chunk)).sent =
        freshChild.sent ++ reads.flatMap fun r => answeredAlone m env freshChild r.request) ∧
      ∀ queries : List Request,
        (clientRun m env freshChild (queries.map fun q => q.only.chunk)).sent =
          freshChild.sent ++ queries.flatMap (answeredAlone m env freshChild) :=
  reads_answered _ _ (fun _ => rfl) _ rfl

/-- Segmentation matters: of two queries that arrive in one read, one is lost. -/
theorem not_segmentation_independent :
    let m : Machine := ⟨.big, .unsigned⟩
    let env : TurnEnv := ⟨⟨0, 0⟩, ⟨true, true⟩, fun _ => true⟩
    ¬ ∀ (queries : List Request) (reads : List Chunk),
      reads.flatMap Chunk.bytes = queries.flatMap Request.bytes →
        (clientRun m env freshChild reads).sent.flatten =
          (queries.flatMap (answeredAlone m env freshChild)).flatten := by
  intro m env hall
  have htwo := hall [portQuery 3, portQuery 4]
    [⟨(portQuery 3).bytes ++ (portQuery 4).bytes, by decide, by decide⟩] rfl
  have hlen := congrArg List.length htwo
  revert hlen
  decide +kernel

end SerialServer.Mrs2s
