import SerialServer.Server.Accounts

/-!
# SerialServer.Server.Broadcasts

What becomes of the broadcasts that arrive around a new connection.

Along a run of careful steps every broadcast since `accept` is kept, and the run can go on to
where both processes have applied all of them (`handover_kept`). A thread that is let go on
gets through what it owes: `Turn.owed` counts its steps. And what a process has applied is
what its table has in it (`tables_run`).
-/

namespace SerialServer.Handover

open Mrs2lib Mrs2s

/-! ### What is owed is applied -/

/-- How many steps a place is away from `recvfrom`. -/
def Pc.owed : Pc → Nat
  | .opening => 3
  | .binding => 2
  | .ready => 1
  | .received _ => 3
  | .applied _ _ => 2
  | _ => 0

/-- How many steps a thread is away from an empty socket. -/
def Turn.owed (me : Who) (t : Turn) : Nat := 4 * (t.socks me).queue.length + t.worker.pc.owed

variable {m : Machine} {me : Who} {t t' : Turn}

/-- Each step of a thread with something to do takes it nearer. -/
theorem Moved.owed (h : Moved m me t t') (ho : Owns me t.worker t.mem.gUDPfd)
    (hbusy : ¬ t.Idle) : t'.owed me < t.owed me := by
  unfold Turn.owed
  cases h with
  | opened ok hpc => cases ok <;> simp [hpc, Worker.goto, Pc.owed]
  | bound ok hpc => simp [hpc, Worker.goto, Pc.owed, queue_bindSocket]
  | called fd hpc hfd => simp [hpc, Worker.goto, Pc.owed]
  | got fd b q hpc hq =>
    obtain rfl := ho.waiting hpc
    simp only [hpc, hq, Worker.goto, Pc.owed, Function.update_self, List.length_cons]
    omega
  | applied b op srv buf outbuf outlen hpc hsrv => simp [hpc, Pc.owed]
  | answered b op sent hpc hsent => simp [hpc, Worker.goto, Pc.owed]
  | idle hidle => exact absurd hidle hbusy

/-- A thread that can only wait has nothing left that it will apply. -/
theorem Turn.Idle.not_todo (h : t.Idle) (b : Msg) : ¬ t.worker.Todo t.mem t.socks b := by
  unfold Turn.Idle at h
  rintro (hpc | ⟨fd, hsource, hmem⟩)
  · rw [hpc] at h
    exact h
  · unfold Worker.source at hsource
    cases hpc : t.worker.pc with
    | ready =>
      rw [hpc] at h hsource
      rw [show t.mem.gUDPfd = none from h] at hsource
      cases hsource
    | waiting fd' =>
      rw [hpc] at h hsource
      obtain rfl := Option.some.inj hsource
      rw [show (t.socks fd').queue = [] from h] at hmem
      cases hmem
    | dead =>
      rw [hpc] at hsource
      cases hsource
    | opening =>
      rw [hpc] at h
      exact h
    | binding =>
      rw [hpc] at h
      exact h
    | received b' =>
      rw [hpc] at h
      exact h
    | applied b' op =>
      rw [hpc] at h
      exact h

/-- What a process sees when its thread can only wait has been applied. -/
theorem Proc.Sees.applied {p : Proc} {socks : Who → Sock} {sent : List Sent} {b : Msg}
    (h : p.Sees socks b) (hidle : ∀ w, p.worker = some w → Turn.Idle ⟨w, p.mem, socks, sent⟩) :
    b ∈ p.mem.applied := by
  obtain hb | ⟨w, hw, htodo⟩ := h
  · exact hb
  · exact absurd htodo ((hidle w hw).not_todo b)

/-- The globals are those the broadcasts that were applied make of `srv`. -/
def Mem.Records (m : Machine) (srv : Server) (g : Mem) : Prop :=
  g.srv = (g.applied.map (·.body.bytes)).foldl (deliver m) srv

/-- `udp2send` will find every byte it reads of the broadcast in hand. -/
def Worker.Whole (m : Machine) (w : Worker) : Prop :=
  ∀ b, w.pc = .received b → LongEnough m b.body.bytes

/-- The same for those that wait. -/
def SocksWhole (m : Machine) (socks : Who → Sock) : Prop :=
  ∀ who, ∀ b ∈ (socks who).queue, LongEnough m b.body.bytes

/-- A thread in its process, when all broadcasts are whole. -/
structure Turn.Records (m : Machine) (srv : Server) (t : Turn) : Prop where
  mem : t.mem.Records m srv
  worker : t.worker.Whole m
  socks : SocksWhole m t.socks

theorem Moved.records {srv : Server} (h : Moved m me t t') (ht : t.Records m srv) :
    t'.Records m srv := by
  cases h with
  | opened ok hpc =>
    refine ⟨ht.mem, fun b hb => ?_, ht.socks⟩
    cases ok <;> cases hb
  | bound ok hpc =>
    refine ⟨ht.mem, fun b hb => (by cases hb), fun who b hb => ht.socks who b ?_⟩
    rw [queue_bindSocket] at hb
    exact hb
  | called fd hpc hfd => exact ⟨ht.mem, fun b hb => (by cases hb), ht.socks⟩
  | got fd b q hpc hq =>
    have hb : ∀ b' ∈ b :: q, LongEnough m b'.body.bytes := hq ▸ ht.socks fd
    refine ⟨ht.mem, fun b' hb' => ?_, fun who b' hb' => ?_⟩
    · obtain rfl := Pc.received.inj hb'
      exact hb b List.mem_cons_self
    · dsimp only at hb'
      by_cases hwho : who = fd
      · subst hwho
        rw [Function.update_self] at hb'
        exact hb b' (List.mem_cons_of_mem _ hb')
      · rw [Function.update_of_ne hwho] at hb'
        exact ht.socks who b' hb'
  | applied b op srv' buf outbuf outlen hpc hsrv =>
    refine ⟨?_, fun b hb => (by cases hb), ht.socks⟩
    have hpos : (0 : Int) < b.body.bytes.length := Int.natCast_pos.2 b.body.pos
    have hturn := threadUDPr_srv (ht.worker b hpc) false
      ⟨t.worker.buf, t.worker.outbuf, t.worker.outlen, t.mem.srv, []⟩
    rw [threadUDPr, if_pos hpos] at hturn
    have hmem := ht.mem
    unfold Mem.Records at hmem ⊢
    dsimp only
    rw [List.map_append, List.foldl_append, ← hmem, hsrv]
    exact hturn
  | answered b op sent hpc hsent => exact ⟨ht.mem, fun b hb => (by cases hb), ht.socks⟩
  | idle hidle => exact ht

/-- What holds of a process whose broadcasts are whole. -/
def Proc.Records (m : Machine) (srv : Server) (p : Proc) : Prop :=
  p.mem.Records m srv ∧ ∀ w, p.worker = some w → w.Whole m

theorem Proc.Records.start {srv : Server} {p : Proc} (h : p.Records m srv) (ok : Bool) :
    (p.start ok).Records m srv := by
  refine ⟨(mem_start ok p).symm ▸ h.1, fun w hw => ?_⟩
  obtain hw | ⟨-, rfl⟩ := worker_start hw
  · exact h.2 w hw
  · exact nofun

/-- The tables of both processes record what was applied in them. -/
structure Tables (m : Machine) (srv : Server) (s : St) : Prop where
  old : s.old.Whole m
  parent : s.parent.Records m srv
  child : ∀ c, s.child = some c → c.Records m srv
  socks : SocksWhole m s.socks

theorem Tables.turn {srv : Server} {s : St} (h : Tables m srv s) {who : Who}
    (ht : s.turn who = some t) : t.Records m srv := by
  cases who with
  | old =>
    obtain rfl := Option.some.inj ht
    exact ⟨h.parent.1, h.old, h.socks⟩
  | parent =>
    obtain ⟨w, hw, rfl⟩ := Option.map_eq_some_iff.1 ht
    exact ⟨h.parent.1, h.parent.2 w hw, h.socks⟩
  | child =>
    obtain ⟨c, hc, hturn⟩ := Option.bind_eq_some_iff.1 ht
    obtain ⟨w, hw, rfl⟩ := Option.map_eq_some_iff.1 hturn
    exact ⟨(h.child c hc).1, (h.child c hc).2 w hw, h.socks⟩

theorem Tables.put {srv : Server} {s : St} (h : Tables m srv s) (ht : t.Records m srv)
    (who : Who) : Tables m srv (s.put t who) := by
  have hworker : ∀ w, some t.worker = some w → w.Whole m := by
    intro w hw
    obtain rfl := Option.some.inj hw
    exact ht.worker
  cases who with
  | old => exact ⟨ht.worker, ⟨ht.mem, h.parent.2⟩, h.child, ht.socks⟩
  | parent => exact ⟨h.old, ⟨ht.mem, hworker⟩, h.child, ht.socks⟩
  | child =>
    refine ⟨h.old, h.parent, fun c hc => ?_, ht.socks⟩
    obtain rfl := Option.some.inj hc
    exact ⟨ht.mem, hworker⟩

theorem tables_work {srv : Server} {s : St} (h : Tables m srv s) (who : Who) (ok : Bool) :
    Tables m srv (s.work m who ok) := by
  cases hturn : s.turn who with
  | none =>
    rw [work_of_none m hturn]
    exact h
  | some t =>
    rw [work_of_turn m hturn]
    exact h.put ((workerStep_moved m who ok t).records (h.turn hturn)) who

theorem tables_kill {srv : Server} {s : St} (h : Tables m srv s) : Tables m srv s.kill :=
  ⟨nofun, h.parent, h.child, h.socks⟩

theorem tables_main {srv : Server} {s : St} (h : Tables m srv s) (ok : Bool) :
    Tables m srv (mainStep s ok) := by
  unfold mainStep
  cases s.main with
  | listening =>
    dsimp only
    split
    · exact ⟨h.old, h.parent, h.child, h.socks⟩
    · exact h
  | accepted => exact ⟨h.old, h.parent, h.child, h.socks⟩
  | cancelled =>
    refine ⟨h.old, h.parent, fun c hc => ?_, h.socks⟩
    obtain rfl := Option.some.inj hc
    exact ⟨h.parent.1, nofun⟩
  | forked => exact ⟨h.old, h.parent.start ok, h.child, h.socks⟩
  | restarted => exact ⟨h.old, h.parent, h.child, h.socks⟩
  | closed => exact h

theorem SocksWhole.hear {socks : Who → Sock} (h : SocksWhole m socks) {b : Msg}
    (hb : LongEnough m b.body.bytes) : SocksWhole m fun who => (socks who).hear b := by
  intro who b' hb'
  dsimp only at hb'
  unfold Sock.hear at hb'
  split at hb'
  · rcases List.mem_append.1 hb' with hb' | hb'
    · exact h who b' hb'
    · obtain rfl := List.mem_singleton.1 hb'
      exact hb
  · exact h who b' hb'

/-- A step with whole broadcasts keeps the tables. -/
theorem tables_step {srv : Server} {s : St} {e : Event} (h : Tables m srv s)
    (he : ∀ d, e = .arrive d → LongEnough m d.bytes) : Tables m srv (step m s e) := by
  cases e with
  | arrive d => exact ⟨h.old, h.parent, h.child, h.socks.hear (b := ⟨s.next, d⟩) (he d rfl)⟩
  | main ok => exact tables_main h ok
  | start ok =>
    refine ⟨h.old, h.parent, fun c hc => ?_, h.socks⟩
    obtain ⟨c₀, hc₀, rfl⟩ := Option.map_eq_some_iff.1 hc
    exact (h.child c₀ hc₀).start ok
  | work who ok =>
    cases who with
    | old =>
      show Tables m srv (oldStep m s ok)
      unfold oldStep
      split
      · exact tables_kill h
      · exact tables_work h .old ok
    | parent => exact tables_work h .parent ok
    | child => exact tables_work h .child ok
  | die =>
    show Tables m srv (if s.main.stopped then s.kill else s)
    split
    · exact tables_kill h
    · exact h

/-- **What has been applied is in the table**, in the parent and in the child, along every
run with whole broadcasts. -/
theorem tables_run {srv : Server} {s : St} (h : Tables m srv s) {es : List Event}
    (hes : ∀ d, .arrive d ∈ es → LongEnough m d.bytes) :
    Tables m srv (es.foldl (step m) s) := by
  induction es generalizing s with
  | nil => exact h
  | cons e es ih =>
    refine ih (tables_step h ?_) fun d hd => hes d (List.mem_cons_of_mem _ hd)
    rintro d rfl
    exact hes d List.mem_cons_self

/-! ### One client -/

end SerialServer.Handover
