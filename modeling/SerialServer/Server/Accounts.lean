import SerialServer.Core.Run
import SerialServer.Server.Handover

/-!
# SerialServer.Server.Accounts

The accounts of the broadcasts that arrive around a new connection.

Two accounts are kept. A broadcast is `Accounted` for as long as it has been applied in both
processes or is with a thread that will apply it; a broadcast is lost when it is only at a
socket nobody reads, or in the hand of a thread that dies or that the child does not have.
And the `weight` of a broadcast is how often it has been sent, with the threads that will
still send it; only a thread of the parent that finds the connection open adds to that.

Both rest on who reads what. As long as the cancelled thread does not open its socket after
the thread that replaces it, each thread reads the socket that it opened itself (`Layout`).

`Careful` names the steps at which all this is kept, and `Inv` is what such steps preserve
(`inv_step`), one lemma for each of them.
-/

namespace SerialServer.Handover

open Mrs2lib Mrs2s

/-! ### The property -/

/-- The broadcast has been applied in the process, or is with the thread that will. -/
def Proc.Sees (p : Proc) (socks : Who → Sock) (b : Msg) : Prop :=
  b ∈ p.mem.applied ∨ ∃ w, p.worker = some w ∧ w.Todo p.mem socks b

/-- Before the fork a broadcast has to get into the table of the parent, which the child will
have. -/
def Early (s : St) (b : Msg) : Prop :=
  b ∈ s.parent.mem.applied ∨ s.old.pc = .received b ∨
    s.main.stopped = false ∧ s.old.Todo s.parent.mem s.socks b

/-- The broadcast is accounted for in both processes. -/
def Accounted (s : St) (b : Msg) : Prop :=
  match s.child with
  | some c => s.parent.Sees s.socks b ∧ c.Sees s.socks b
  | none => Early s b

/-- Every broadcast since `accept` is accounted for, and sent once at most. -/
def Kept (s : St) : Prop := ∀ b ∈ s.since, Accounted s b ∧ sends s.sent b ≤ 1

/-- The thread of the process reads a socket that is bound. -/
def Proc.bound (p : Proc) (socks : Who → Sock) : Bool := p.worker.any (·.bound p.mem socks)

/-- The step loses no broadcast and sends none twice. -/
def Careful (s : St) : Event → Prop
  /- A broadcast arrives at the socket the old thread reads, or at those of both new ones. -/
  | .arrive _ =>
      if s.main.stopped then
        s.parent.bound s.socks = true ∧ s.child.any (Proc.bound · s.socks) = true
      else s.main = .listening ∨ s.old.bound s.parent.mem s.socks = true
  | .main _ =>
      match s.main with
      /- The thread is cancelled when nothing waits at its socket. -/
      | .accepted => ∀ b ∈ s.since, ∀ fd, s.old.source s.parent.mem.gUDPfd = some fd →
          b ∉ (s.socks fd).queue
      /- The fork is made when the thread has nothing in hand that is not applied. -/
      | .cancelled => ∀ b ∈ s.since, s.old.pc ≠ .received b
      | _ => True
  /- A cancelled thread does not call `socket` behind the thread that replaces it. -/
  | .work .old _ =>
      s.main.stopped = true → s.old.pc = .opening →
        ∀ w, s.parent.worker = some w → w.pc = .opening
  /- The parent has closed the connection when its thread gets to the `send`. -/
  | .work .parent _ =>
      ∀ w b, s.parent.worker = some w → w.pc = .applied b 0 → s.parent.mem.newFd = false
  /- The thread does not die between `recvfrom` and `udp2send`. -/
  | .die => s.main.stopped = true → ∀ b ∈ s.since, s.old.pc ≠ .received b
  | _ => True

/-! ### The accounts -/

/-- The broadcast the thread of the child has in hand. -/
def St.childHold (s : St) (b : Msg) : Nat := (s.child.bind Proc.worker).elim 0 (·.hold b)

/-- How often a broadcast has been sent or will be. The old thread does not go back to its
socket when it has been cancelled, and the thread of the parent does not send. -/
def weight (s : St) (b : Msg) : Nat :=
  sends s.sent b + s.old.hold b + (if s.main.stopped then 0 else (s.socks .old).queue.count b) +
    s.childHold b + (s.socks .child).queue.count b

/-- Who is there, and who reads what. -/
structure Layout (s : St) : Prop where
  noChild : s.main = .listening ∨ s.main = .accepted ∨ s.main = .cancelled → s.child = none
  noWorker : s.main.stopped = false ∨ s.main = .cancelled ∨ s.main = .forked →
    s.parent.worker = none
  unopened : s.child = none → s.socks .child = ⟨false, []⟩
  gUDPfd : s.parent.mem.gUDPfd ≠ some .child
  old : s.main.stopped = false → Owns .old s.old s.parent.mem.gUDPfd
  parent : ∀ w, s.parent.worker = some w → Owns .parent w s.parent.mem.gUDPfd
  child : ∀ c w, s.child = some c → c.worker = some w → Owns .child w c.mem.gUDPfd
  closed : s.main = .closed → s.parent.mem.newFd = false

/-- What holds along a careful run. -/
structure Inv (s : St) : Prop extends Layout s where
  fresh : ∀ b, s.next ≤ b.id → weight s b = 0 ∧ b ∉ s.since
  accounted : ∀ b ∈ s.since, Accounted s b
  once : ∀ b ∈ s.since, weight s b ≤ 1

theorem accounted_none {s : St} {b : Msg} (h : s.child = none) : Accounted s b ↔ Early s b := by
  rw [Accounted, h]

theorem accounted_some {s : St} {c : Proc} {b : Msg} (h : s.child = some c) :
    Accounted s b ↔ s.parent.Sees s.socks b ∧ c.Sees s.socks b := by
  rw [Accounted, h]

/-- When the thread is cancelled, nothing is left at its socket to account for. -/
theorem Early.stopped {s : St} {b : Msg} (h : Early s b) (hstop : s.main.stopped = true) :
    b ∈ s.parent.mem.applied ∨ s.old.pc = .received b := by
  obtain h | h | ⟨hrun, -⟩ := h
  · exact .inl h
  · exact .inr h
  · rw [hstop] at hrun
    cases hrun

/-- The accounts are kept by a step that makes no fork if each of their entries is. -/
theorem Accounted.imp {s s' : St} {b : Msg} (h : Accounted s b)
    (hnone : s.child = none → s'.child = none ∧ (Early s b → Early s' b))
    (hsome : ∀ c, s.child = some c → ∃ c', s'.child = some c' ∧
      (s.parent.Sees s.socks b → s'.parent.Sees s'.socks b) ∧
      (c.Sees s.socks b → c'.Sees s'.socks b)) : Accounted s' b := by
  cases hchild : s.child with
  | none =>
    obtain ⟨hnone', himp⟩ := hnone hchild
    exact (accounted_none hnone').2 (himp ((accounted_none hchild).1 h))
  | some c =>
    obtain ⟨c', hc', hparent, hc⟩ := hsome c hchild
    obtain ⟨hp, hb⟩ := (accounted_some hchild).1 h
    exact (accounted_some hc').2 ⟨hparent hp, hc hb⟩

theorem Inv.kept {s : St} (h : Inv s) : Kept s := by
  intro b hb
  have honce := h.once b hb
  unfold weight at honce
  exact ⟨h.accounted b hb, by omega⟩

variable {socks socks' : Who → Sock} {b : Msg}

/-- Nothing that a thread has to do is lost when nothing is taken from the socket it reads. -/
theorem Worker.Todo.mono {w : Worker} {g : Mem} (h : w.Todo g socks b)
    (hq : ∀ fd, w.source g.gUDPfd = some fd → b ∈ (socks fd).queue → b ∈ (socks' fd).queue) :
    w.Todo g socks' b :=
  h.imp_right fun ⟨fd, hsource, hmem⟩ => ⟨fd, hsource, hq fd hsource hmem⟩

theorem Proc.Sees.mono {p : Proc} (h : p.Sees socks b)
    (hq : ∀ w fd, p.worker = some w → w.source p.mem.gUDPfd = some fd →
      b ∈ (socks fd).queue → b ∈ (socks' fd).queue) : p.Sees socks' b :=
  h.imp_right fun ⟨w, hw, htodo⟩ => ⟨w, hw, htodo.mono fun fd => hq w fd hw⟩

theorem mem_start (ok : Bool) (p : Proc) : (p.start ok).mem = p.mem := by
  unfold Proc.start
  split <;> rfl

/-- A thread is started where there is none, and has everything before it. -/
theorem worker_start {ok : Bool} {p : Proc} {w : Worker} (h : (p.start ok).worker = some w) :
    p.worker = some w ∨ p.worker = none ∧ w = Worker.fresh := by
  unfold Proc.start at h
  split at h
  · next hstart =>
    obtain ⟨-, hnone⟩ := Bool.and_eq_true_iff.1 hstart
    exact .inr ⟨Option.isNone_iff_eq_none.1 hnone, (Option.some.inj h).symm⟩
  · exact .inl h

theorem Proc.Sees.start {p : Proc} (h : p.Sees socks b) (ok : Bool) :
    (p.start ok).Sees socks b := by
  unfold Proc.start
  split
  · next hstart =>
    obtain ⟨-, hnone⟩ := Bool.and_eq_true_iff.1 hstart
    rcases h with h | ⟨w, hw, -⟩
    · exact .inl h
    · rw [hw] at hnone
      cases hnone
  · exact h

theorem Owns.start {ok : Bool} {p : Proc} {me : Who}
    (h : ∀ w, p.worker = some w → Owns me w p.mem.gUDPfd) {w : Worker}
    (hw : (p.start ok).worker = some w) : Owns me w (p.start ok).mem.gUDPfd := by
  rw [mem_start]
  obtain hw | ⟨-, rfl⟩ := worker_start hw
  · exact h w hw
  · exact owns_opening rfl me _

end SerialServer.Handover
