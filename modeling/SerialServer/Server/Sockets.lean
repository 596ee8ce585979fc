import SerialServer.Core.Inet
import SerialServer.Core.Run

/-!
# SerialServer.Server.Sockets

The receive sockets of the server process, `mrs2s.c`.

Each `threadUDPr` opens a socket of its own in `udp_broadcast_init`, and every client makes
`main` cancel the thread there is and start another. A thread is cancelled at the
`recvfrom` it waits in, so the `close` behind its endless loop is never reached, and one that
is cancelled before its `udp_broadcast_init` runs it all the same.

The descriptors of the sockets are positions in a table, and `gUDPfd` is one of them, or
none. The calls of different threads may fall in any order, between `socket` and `bind`, too.
Between two calls of `accept`, `main` does not touch the sockets; what it does there is one
step.
-/

namespace SerialServer.Mrs2s

/-- A descriptor that `socket` has returned. -/
inductive Slot
  | closed
  | unbound
  | bound
  deriving Repr, DecidableEq

/-- Where a thread is in `threadUDPr`. -/
inductive Pc
  /-- Before `udp_broadcast_init`. -/
  | init
  /-- In `udp_broadcast_init`, with a socket. -/
  | bind
  /-- In the loop. -/
  | receive
  /-- Cancelled, and ended. -/
  | gone
  deriving Repr, DecidableEq

structure Thread where
  pc : Pc
  cancelled : Bool
  deriving Repr, DecidableEq

/-- The receive sockets of a process, and the descriptor in use. -/
structure Sockets where
  socks : List Slot
  gUDPfd : Option Nat
  deriving Repr, DecidableEq

/-- The server process, as far as its receive sockets go. -/
structure Parent where
  net : Sockets
  threads : List Thread
  /-- `tid[0]`. -/
  tid : Option Nat
  threadErr : Int
  deriving Repr, DecidableEq

/-! ### Opening a socket -/

/-- `udp_broadcast_init`, up to its socket. -/
def openSocket (ok : Bool) (n : Sockets) : Sockets :=
  if ok then ⟨n.socks ++ [.unbound], some n.socks.length⟩ else ⟨n.socks, none⟩

/-- The slot `gUDPfd` designates, set. -/
def Sockets.set (n : Sockets) (s : Slot) : Sockets :=
  match n.gUDPfd with
  | some fd => ⟨n.socks.set fd s, n.gUDPfd⟩
  | none => n

/-- Whether `bind` can succeed: `gUDPfd` is a socket that is not bound. -/
def Sockets.canBind (n : Sockets) : Bool :=
  match n.gUDPfd with
  | some fd => n.socks[fd]? = some .unbound
  | none => false

/-- `udp_broadcast_init`, from `inet_aton` on. -/
def bindSocket (m : Machine) (paddr : List Char) (ok : Bool) (n : Sockets) : Int × Sockets :=
  if (inetAton m paddr).isNone then (-2, n.set .closed)
  else if ok && n.canBind then (0, n.set .bound)
  else (-3, n)

/-- `udp_broadcast_init`, when no other thread is in it: whether `socket` and `bind` succeed
is given. -/
def udpBroadcastInit (m : Machine) (paddr : List Char) (socketOk bindOk : Bool) (n : Sockets) :
    Int × Sockets :=
  if !socketOk then (-1, openSocket false n)
  else bindSocket m paddr bindOk (openSocket true n)

/-- The address `threadUDPr` listens on. -/
def broadcastAddr : List Char := "127.255.255.255".toList

/-! ### Threads -/

/-- One step of the thread at position `i`; `ok` is whether the call it makes succeeds. -/
def threadStep (m : Machine) (p : Parent) (i : Nat) (ok : Bool) : Parent :=
  match p.threads[i]? with
  | some ⟨.init, c⟩ =>
      { p with net := openSocket ok p.net
               threads := p.threads.set i ⟨if ok then .bind else .receive, c⟩ }
  | some ⟨.bind, c⟩ =>
      { p with net := (bindSocket m broadcastAddr ok p.net).2
               threads := p.threads.set i ⟨.receive, c⟩ }
  | some ⟨.receive, true⟩ => { p with threads := p.threads.set i ⟨.gone, true⟩ }
  | _ => p

/-- `startUDPrecv`; `err` is what `pthread_create` returns. -/
def startUDPrecv (err : Int) (p : Parent) : Parent :=
  if err = 0 then
    { p with threads := p.threads ++ [⟨.init, false⟩], tid := some p.threads.length,
             threadErr := err }
  else { p with threadErr := err }

/-- `pthread_cancel(tid[0])`. -/
def cancel (p : Parent) : Parent :=
  match p.tid with
  | some i => { p with threads := p.threads.modify i fun t => { t with cancelled := true } }
  | none => p

/-- What happens to the process. -/
inductive Event
  /-- `accept` returns; the thread is cancelled, and after `fork` another one is started. -/
  | accept (ok : Bool) (err : Int)
  /-- A thread goes on. -/
  | thread (i : Nat) (ok : Bool)
  deriving Repr, DecidableEq

/-- One step of the process. Waiting for a thread that could not be started (`stopUDPrecv`)
changes nothing here. -/
def serverStep (m : Machine) (p : Parent) : Event → Parent
  | .accept ok err => if ok then startUDPrecv err (cancel p) else p
  | .thread i ok => threadStep m p i ok

/-- The process before its first `accept`. -/
def boot (err : Int) : Parent := startUDPrecv err ⟨⟨[], none⟩, [], none, 0⟩

/-- When nothing else happens in between, two steps of a thread are `udp_broadcast_init`. -/
theorem threadStep_init (m : Machine) {p : Parent} {i : Nat} {c : Bool}
    (h : p.threads[i]? = some ⟨.init, c⟩) (bindOk : Bool) :
    threadStep m (threadStep m p i true) i bindOk =
      { p with net := (udpBroadcastInit m broadcastAddr true bindOk p.net).2
               threads := p.threads.set i ⟨.receive, c⟩ } := by
  have hi : i < p.threads.length := (List.getElem?_eq_some_iff.1 h).1
  have hfirst : threadStep m p i true =
      { p with net := openSocket true p.net, threads := p.threads.set i ⟨.bind, c⟩ } := by
    rw [threadStep, h]
    rfl
  have hbind : (p.threads.set i ⟨.bind, c⟩)[i]? = some ⟨.bind, c⟩ := List.getElem?_set_self hi
  rw [hfirst]
  simp only [threadStep, hbind, List.set_set]
  rfl

/-! ### The property -/

/-- How many threads are in `udp_broadcast_init` with a socket. -/
def binding (ts : List Thread) : Nat := ts.countP (·.pc = .bind)

/-- At most one socket is open, `gUDPfd` designates it, and it is bound unless a thread is
still in `udp_broadcast_init`. -/
def OneSocket (p : Parent) : Prop :=
  ∀ i s, p.net.socks[i]? = some s → s ≠ .closed →
    p.net.gUDPfd = some i ∧ (s = .bound ∨ 0 < binding p.threads)

/-- No socket is open when a thread asks for one, and when it got one `bind` succeeds. -/
def Careful (p : Parent) : Event → Prop
  | .accept _ _ => True
  | .thread i ok =>
      match p.threads[i]? with
      | some ⟨.init, _⟩ => ∀ s ∈ p.net.socks, s = .closed
      | some ⟨.bind, _⟩ => ok = true
      | _ => True

/-- Every thread that is in `udp_broadcast_init` with a socket has left one unbound. -/
def Balanced (p : Parent) : Prop := binding p.threads ≤ p.net.socks.countP (· = .unbound)

/-! ### What a step changes -/

theorem countP_set_of {α : Type} {l : List α} {i : Nat} {x : α} (h : l[i]? = some x)
    (q : α → Bool) (a : α) :
    (l.set i a).countP q = l.countP q - (if q x then 1 else 0) + (if q a then 1 else 0) := by
  obtain ⟨hi, rfl⟩ := List.getElem?_eq_some_iff.1 h
  exact List.countP_set hi

/-- How one thread going on changes the number in `udp_broadcast_init`. -/
theorem binding_set {ts : List Thread} {i : Nat} {t : Thread} (h : ts[i]? = some t)
    (t' : Thread) : binding (ts.set i t') =
      binding ts - (if t.pc = .bind then 1 else 0) + (if t'.pc = .bind then 1 else 0) := by
  unfold binding
  rw [countP_set_of h]
  simp only [decide_eq_true_eq]

theorem binding_pos {ts : List Thread} {i : Nat} {c : Bool} (h : ts[i]? = some ⟨.bind, c⟩) :
    0 < binding ts :=
  List.countP_pos_iff.2 ⟨_, List.mem_of_getElem? h, rfl⟩

/-- Cancelling a thread leaves it where it is. -/
theorem binding_cancel (ts : List Thread) (i : Nat) :
    binding (ts.modify i fun t => { t with cancelled := true }) = binding ts := by
  induction ts generalizing i with
  | nil => cases i <;> rfl
  | cons t ts ih =>
    cases i with
    | zero => rfl
    | succ i =>
      show (t :: ts.modify i _).countP _ = _
      have := ih i
      unfold binding at this ⊢
      rw [List.countP_cons, List.countP_cons, this]

/-- A connection touches no socket. -/
theorem accept_same (m : Machine) (p : Parent) (ok : Bool) (err : Int) :
    (serverStep m p (.accept ok err)).net = p.net ∧
      binding (serverStep m p (.accept ok err)).threads = binding p.threads := by
  have hcancel : (cancel p).net = p.net ∧ binding (cancel p).threads = binding p.threads := by
    unfold cancel
    split
    · exact ⟨rfl, binding_cancel _ _⟩
    · exact ⟨rfl, rfl⟩
  have hstart : ∀ p : Parent, (startUDPrecv err p).net = p.net ∧
      binding (startUDPrecv err p).threads = binding p.threads := by
    intro p
    unfold startUDPrecv binding
    split
    · simp [List.countP_append]
    · exact ⟨rfl, rfl⟩
  cases ok with
  | false => exact ⟨rfl, rfl⟩
  | true =>
    obtain ⟨hnet, hbinding⟩ := hstart (cancel p)
    exact ⟨hnet.trans hcancel.1, hbinding.trans hcancel.2⟩

/-- The address is one, so `bind` is always tried. -/
theorem bindSocket_broadcast (m : Machine) (ok : Bool) (n : Sockets) :
    (bindSocket m broadcastAddr ok n).2 = if ok && n.canBind then n.set .bound else n := by
  have haddr : (inetAton m broadcastAddr).isNone = false := by
    obtain ⟨order, sign⟩ := m
    cases order <;> cases sign <;> decide
  rw [bindSocket, haddr, if_neg Bool.false_ne_true]
  split <;> rfl

/-- Binding takes one socket at most from those that are not bound. -/
theorem unbound_bindSocket (m : Machine) (ok : Bool) (n : Sockets) :
    n.socks.countP (· = .unbound) - 1 ≤
      (bindSocket m broadcastAddr ok n).2.socks.countP (· = .unbound) := by
  rw [bindSocket_broadcast]
  split
  · rename_i hbind
    obtain ⟨-, hcan⟩ := Bool.and_eq_true_iff.1 hbind
    unfold Sockets.canBind at hcan
    unfold Sockets.set
    cases hfd : n.gUDPfd with
    | none => exact Nat.sub_le _ _
    | some fd =>
      rw [hfd] at hcan
      have hset := countP_set_of (of_decide_eq_true hcan) (· = .unbound) Slot.bound
      dsimp only at hset ⊢
      rw [hset]
      simp
  · omega

/-- Every step keeps the balance. -/
theorem balanced_step (m : Machine) (p : Parent) (e : Event) (h : Balanced p) :
    Balanced (serverStep m p e) := by
  unfold Balanced at h ⊢
  cases e with
  | accept ok err =>
    obtain ⟨hnet, hbinding⟩ := accept_same m p ok err
    rw [hnet, hbinding]
    exact h
  | thread i ok =>
    show binding (threadStep m p i ok).threads ≤ (threadStep m p i ok).net.socks.countP _
    unfold threadStep
    split
    · next c hi =>
      dsimp only
      rw [binding_set hi]
      cases ok with
      | false => simpa [openSocket] using h
      | true => simpa [openSocket, List.countP_append] using h
    · next c hi =>
      dsimp only
      rw [binding_set hi]
      have hsub := unbound_bindSocket m ok p.net
      simp only [if_true, reduceCtorEq, if_false]
      omega
    · next hi =>
      dsimp only
      rw [binding_set hi]
      simpa using h
    · exact h

/-! ### The steps that keep the property -/

/-- Asking for a socket keeps the property when none is open. -/
theorem oneSocket_open {p : Parent} {i : Nat} {c : Bool}
    (hi : p.threads[i]? = some ⟨.init, c⟩) (ok : Bool) :
    OneSocket { p with
        net := openSocket ok p.net
        threads := p.threads.set i ⟨if ok then .bind else .receive, c⟩ } ↔
      ∀ s ∈ p.net.socks, s = .closed := by
  constructor
  · intro h' s hs
    by_contra hne
    obtain ⟨j, hj⟩ := List.mem_iff_getElem?.1 hs
    obtain ⟨hlt, -⟩ := List.getElem?_eq_some_iff.1 hj
    cases ok with
    | false => exact absurd (h' j s hj hne).1 (by simp [openSocket])
    | true =>
      have hj' : (p.net.socks ++ [Slot.unbound])[j]? = some s := by
        rw [List.getElem?_append_left hlt, hj]
      have hlast : some p.net.socks.length = some j := (h' j s hj' hne).1
      exact absurd (Option.some.inj hlast) (Nat.ne_of_gt hlt)
  · intro hclosed j s hj hne
    cases ok with
    | false => exact absurd (hclosed s (List.mem_of_getElem? hj)) hne
    | true =>
      have hj' : (p.net.socks ++ [Slot.unbound])[j]? = some s := hj
      rcases Nat.lt_or_ge j p.net.socks.length with hlt | hge
      · rw [List.getElem?_append_left hlt] at hj'
        exact absurd (hclosed s (List.mem_of_getElem? hj')) hne
      · rw [List.getElem?_append_right hge] at hj'
        obtain ⟨hzero, -⟩ := List.getElem?_eq_some_iff.1 hj'
        obtain rfl : j = p.net.socks.length := by
          rw [List.length_singleton] at hzero
          omega
        refine ⟨rfl, .inr ?_⟩
        show 0 < binding (p.threads.set i ⟨.bind, c⟩)
        rw [binding_set hi]
        simp

/-- In a process with one socket at most, a thread in `udp_broadcast_init` with a socket is
alone there, and its socket is the one that is open. -/
theorem binding_alone {p : Parent} {i : Nat} {c : Bool} (h : OneSocket p) (hb : Balanced p)
    (hi : p.threads[i]? = some ⟨.bind, c⟩) :
    binding p.threads = 1 ∧ ∃ fd, p.net.gUDPfd = some fd ∧ p.net.socks[fd]? = some .unbound := by
  have hpos : 0 < binding p.threads := binding_pos hi
  obtain ⟨s, hs, hunbound⟩ := List.countP_pos_iff.1 (Nat.lt_of_lt_of_le hpos hb)
  obtain rfl : s = .unbound := of_decide_eq_true hunbound
  obtain ⟨fd, hfd⟩ := List.mem_iff_getElem?.1 hs
  obtain ⟨hg, -⟩ := h fd _ hfd Slot.noConfusion
  refine ⟨?_, fd, hg, hfd⟩
  -- Without that socket none is left that is not bound.
  have hset := countP_set_of hfd (· = .unbound) Slot.closed
  have hnone : (p.net.socks.set fd .closed).countP (· = .unbound) = 0 := by
    refine List.countP_eq_zero.2 fun s hs hsu => ?_
    obtain rfl : s = .unbound := of_decide_eq_true hsu
    obtain ⟨j, hj⟩ := List.mem_iff_getElem?.1 hs
    rw [List.getElem?_set] at hj
    split at hj
    · split at hj <;> cases hj
    · next hne =>
      obtain ⟨hg', -⟩ := h j _ hj Slot.noConfusion
      exact hne (Option.some.inj (hg.symm.trans hg'))
  unfold Balanced at hb
  rw [hnone] at hset
  simp at hset
  omega

/-- Binding keeps the property when it succeeds. -/
theorem oneSocket_bind (m : Machine) {p : Parent} {i : Nat} {c : Bool} (h : OneSocket p)
    (hb : Balanced p) (hi : p.threads[i]? = some ⟨.bind, c⟩) (ok : Bool) :
    OneSocket { p with
        net := (bindSocket m broadcastAddr ok p.net).2
        threads := p.threads.set i ⟨.receive, c⟩ } ↔ ok = true := by
  obtain ⟨hone, fd, hg, hfd⟩ := binding_alone h hb hi
  have hleft : binding (p.threads.set i ⟨.receive, c⟩) = 0 := by
    rw [binding_set hi, hone]
    rfl
  rw [bindSocket_broadcast]
  cases ok with
  | false =>
    refine iff_of_false (fun h' => ?_) Bool.false_ne_true
    obtain ⟨-, hcase⟩ := h' fd _ hfd Slot.noConfusion
    rcases hcase with hbound | hpos
    · cases hbound
    · rw [hleft] at hpos
      exact absurd hpos (Nat.lt_irrefl 0)
  | true =>
    have hcan : p.net.canBind = true := by
      rw [Sockets.canBind, hg]
      exact decide_eq_true hfd
    have hset : p.net.set .bound = ⟨p.net.socks.set fd .bound, some fd⟩ := by
      rw [Sockets.set, hg]
    refine iff_of_true (fun j s hj hne => ?_) rfl
    rw [hcan, hset] at hj ⊢
    have hj' : (p.net.socks.set fd .bound)[j]? = some s := hj
    rw [List.getElem?_set] at hj'
    split at hj'
    · next heq =>
      subst heq
      split at hj'
      · obtain rfl := Option.some.inj hj'
        exact ⟨rfl, .inl rfl⟩
      · cases hj'
    · next hne' =>
      obtain ⟨hg', -⟩ := h j s hj' hne
      exact absurd (Option.some.inj (hg.symm.trans hg')) hne'

/-- **The steps that keep the property** are the careful ones. -/
theorem oneSocket_step (m : Machine) (p : Parent) (e : Event) (hb : Balanced p)
    (h : OneSocket p) : OneSocket (serverStep m p e) ↔ Careful p e := by
  cases e with
  | accept ok err =>
    obtain ⟨hnet, hbinding⟩ := accept_same m p ok err
    refine iff_of_true ?_ trivial
    unfold OneSocket
    rw [hnet, hbinding]
    exact h
  | thread i ok =>
    show OneSocket (threadStep m p i ok) ↔ _
    unfold threadStep
    dsimp only [Careful]
    cases hi : p.threads[i]? with
    | none => exact iff_of_true h trivial
    | some t =>
      obtain ⟨pc, c⟩ := t
      cases pc with
      | init => exact oneSocket_open hi ok
      | bind => exact oneSocket_bind m h hb hi ok
      | receive =>
        cases c with
        | false => exact iff_of_true h trivial
        | true =>
          refine iff_of_true (fun j s hj hne => ?_) trivial
          have hsame : binding (p.threads.set i ⟨.gone, true⟩) = binding p.threads := by
            rw [binding_set hi]
            rfl
          obtain ⟨hg, hcase⟩ := h j s hj hne
          exact ⟨hg, hcase.imp_right fun hpos => hsame ▸ hpos⟩
      | gone => exact iff_of_true h trivial

theorem boot_socks (err : Int) : (boot err).net.socks = [] := by
  unfold boot startUDPrecv
  split <;> rfl

theorem oneSocket_boot (err : Int) : OneSocket (boot err) := by
  intro i s hi
  rw [boot_socks] at hi
  cases hi

theorem balanced_boot (err : Int) : Balanced (boot err) := by
  unfold boot startUDPrecv
  split <;> exact Nat.zero_le _

/-- A run of the server keeps to one socket just if all its steps are careful. -/
theorem oneSocket_iff_careful (m : Machine) (err : Int) (es : List Event) :
    Run.Always (serverStep m) OneSocket (boot err) es ↔
      Run.EachStep (serverStep m) Careful (boot err) es := by
  have hiff : Run.Always (serverStep m) OneSocket (boot err) es ↔ _ :=
    Run.always_iff_eachStep (balanced_boot err) (balanced_step m) (oneSocket_step m)
  rw [hiff]
  exact and_iff_right (oneSocket_boot err)

/-! ### The calls of the threads -/

/-- A call that a thread makes in `udp_broadcast_init`, and whether it succeeds. -/
inductive InitCall
  | socket (ok : Bool)
  | bind (ok : Bool)
  deriving Repr, DecidableEq

/-- The call that an event is. Where a thread stands depends on the events before, not on the
sockets. -/
def callOf (ts : List Thread) : Event → List InitCall
  | .accept _ _ => []
  | .thread i ok =>
      match ts[i]? with
      | some ⟨.init, _⟩ => [.socket ok]
      | some ⟨.bind, _⟩ => [.bind ok]
      | _ => []

/-- The calls of `socket` and `bind` in a run, in their order. -/
def calls (m : Machine) : Parent → List Event → List InitCall
  | _, [] => []
  | p, e :: es => callOf p.threads e ++ calls m (serverStep m p e) es

/-- One call of `socket` succeeds at most, none is tried after it, and no `bind` fails. -/
structure OneInit (cs : List InitCall) : Prop where
  last : cs.Pairwise fun c c' => c = .socket true → ∀ ok, c' ≠ .socket ok
  bound : ∀ c ∈ cs, c ≠ .bind false

theorem oneInit_cons (c : InitCall) (cs : List InitCall) :
    OneInit (c :: cs) ↔
      (c = .socket true → ∀ ok, .socket ok ∉ cs) ∧ c ≠ .bind false ∧ OneInit cs := by
  constructor
  · rintro ⟨hlast, hbound⟩
    obtain ⟨hc, hlast⟩ := List.pairwise_cons.1 hlast
    obtain ⟨hb, hbound⟩ := List.forall_mem_cons.1 hbound
    exact ⟨fun hsock ok hok => hc _ hok hsock ok rfl, hb, hlast, hbound⟩
  · rintro ⟨hc, hb, hlast, hbound⟩
    refine ⟨List.pairwise_cons.2 ⟨fun c' hc' hsock ok hok => ?_, hlast⟩,
      List.forall_mem_cons.2 ⟨hb, hbound⟩⟩
    exact hc hsock ok (hok ▸ hc')

/-- One step closes no socket. -/
theorem serverStep_open (m : Machine) (p : Parent) (e : Event)
    (h : ∀ s ∈ p.net.socks, s ≠ .closed) : ∀ s ∈ (serverStep m p e).net.socks, s ≠ .closed := by
  cases e with
  | accept ok err =>
    rw [(accept_same m p ok err).1]
    exact h
  | thread i ok =>
    show ∀ s ∈ (threadStep m p i ok).net.socks, s ≠ .closed
    unfold threadStep
    split
    · intro s hs
      cases ok with
      | false => exact h s hs
      | true =>
        rcases List.mem_append.1 hs with hs | hs
        · exact h s hs
        · obtain rfl := List.mem_singleton.1 hs
          exact Slot.noConfusion
    · intro s hs
      rw [bindSocket_broadcast] at hs
      split at hs
      · unfold Sockets.set at hs
        split at hs
        · rcases List.mem_or_eq_of_mem_set hs with hs | rfl
          · exact h s hs
          · exact Slot.noConfusion
        · exact h s hs
      · exact h s hs
    · exact h
    · exact h

/-- Binding opens no socket. -/
theorem length_bindSocket (m : Machine) (ok : Bool) (n : Sockets) :
    (bindSocket m broadcastAddr ok n).2.socks.length = n.socks.length := by
  rw [bindSocket_broadcast]
  split
  · unfold Sockets.set
    split
    · exact List.length_set
    · rfl
  · rfl

/-- What a step does to the sockets, and when it is careful, by the call that it is. -/
theorem callOf_cases (m : Machine) (p : Parent) (e : Event) :
    (callOf p.threads e = [] ∧ Careful p e ∧ (serverStep m p e).net.socks = p.net.socks) ∨
    (∃ ok, callOf p.threads e = [.socket ok] ∧
      (Careful p e ↔ ∀ s ∈ p.net.socks, s = .closed) ∧
      (serverStep m p e).net.socks = p.net.socks ++ if ok then [.unbound] else []) ∨
    (∃ ok, callOf p.threads e = [.bind ok] ∧ (Careful p e ↔ ok = true) ∧
      (serverStep m p e).net.socks.length = p.net.socks.length) := by
  cases e with
  | accept ok err =>
    exact .inl ⟨rfl, trivial, congrArg Sockets.socks (accept_same m p ok err).1⟩
  | thread i ok =>
    simp only [callOf, Careful, serverStep, threadStep]
    cases p.threads[i]? with
    | none => exact .inl ⟨rfl, trivial, rfl⟩
    | some t =>
      obtain ⟨pc, c⟩ := t
      cases pc with
      | init =>
        refine .inr (.inl ⟨ok, rfl, Iff.rfl, ?_⟩)
        cases ok with
        | true => rfl
        | false => exact (List.append_nil _).symm
      | bind => exact .inr (.inr ⟨ok, rfl, Iff.rfl, length_bindSocket m ok p.net⟩)
      | receive => cases c <;> exact .inl ⟨rfl, trivial, rfl⟩
      | gone => exact .inl ⟨rfl, trivial, rfl⟩

/-- As no socket is ever closed, the steps from a state on are careful just if `OneInit` holds of
their calls, and no `socket` is called if one is open already. -/
theorem careful_iff_calls (m : Machine) (es : List Event) :
    ∀ p : Parent, (∀ s ∈ p.net.socks, s ≠ .closed) →
      (Run.EachStep (serverStep m) Careful p es ↔
        OneInit (calls m p es) ∧
          (p.net.socks ≠ [] → ∀ ok, .socket ok ∉ calls m p es)) := by
  induction es with
  | nil => exact fun p _ => iff_of_true trivial ⟨⟨.nil, by simp [calls]⟩, by simp [calls]⟩
  | cons e es ih =>
    intro p hopen
    have hnext := ih (serverStep m p e) (serverStep_open m p e hopen)
    rw [Run.EachStep, hnext, calls]
    rcases callOf_cases m p e with
      ⟨hcall, hcareful, hsocks⟩ | ⟨ok, hcall, hcareful, hsocks⟩ | ⟨ok, hcall, hcareful, hlen⟩
    · rw [hcall, hsocks]
      exact and_iff_right hcareful
    · have hnil : Careful p e ↔ p.net.socks = [] := by
        rw [hcareful, List.eq_nil_iff_forall_not_mem]
        exact forall₂_congr fun s hs => iff_of_false (hopen s hs) not_false
      rw [hcall, hsocks, hnil, List.singleton_append, oneInit_cons]
      constructor
      · rintro ⟨hempty, hrest, hnone⟩
        refine ⟨⟨fun hok => hnone ?_, InitCall.noConfusion, hrest⟩, fun h => absurd hempty h⟩
        obtain rfl := InitCall.socket.inj hok
        simp
      · rintro ⟨⟨hlast, -, hrest⟩, hnone⟩
        have hempty : p.net.socks = [] := by
          by_contra h
          exact hnone h ok (List.mem_cons_self ..)
        refine ⟨hempty, hrest, fun h => hlast ?_⟩
        cases ok with
        | true => rfl
        | false => exact absurd hempty (by simpa using h)
    · have hsame : (serverStep m p e).net.socks ≠ [] ↔ p.net.socks ≠ [] := by
        rw [← List.length_pos_iff, ← List.length_pos_iff, hlen]
      have hok : ok = true ↔ InitCall.bind ok ≠ .bind false := by
        cases ok <;> simp
      have hmem : ∀ b, InitCall.socket b ∉ InitCall.bind ok :: calls m (serverStep m p e) es ↔
          InitCall.socket b ∉ calls m (serverStep m p e) es := by
        simp
      rw [hcall, hcareful, hsame, hok, List.singleton_append, oneInit_cons]
      simp only [hmem]
      constructor
      · rintro ⟨hbind, hrest, hnone⟩
        exact ⟨⟨InitCall.noConfusion, hbind, hrest⟩, hnone⟩
      · rintro ⟨⟨-, hbind, hrest⟩, hnone⟩
        exact ⟨hbind, hrest, hnone⟩

/-- **When the receive sockets do not accumulate**: a run of the server keeps to one socket
just if one call of `socket` succeeds in its threads at most, none is tried after it, and no
`bind` fails. -/
theorem oneSocket_iff (m : Machine) (err : Int) (es : List Event) :
    Run.Always (serverStep m) OneSocket (boot err) es ↔ OneInit (calls m (boot err) es) := by
  rw [oneSocket_iff_careful, careful_iff_calls m es (boot err) (by simp [boot_socks])]
  exact and_iff_left fun h => absurd (boot_socks err) h

/-- One client is enough: the socket of the first thread is open when the second one asks for
its own. -/
theorem not_oneSocket : ¬ ∀ (m : Machine) (err : Int) (es : List Event),
    Run.Always (serverStep m) OneSocket (boot err) es := by
  intro h
  have hall := Run.always_iff.1 (h ⟨.little, .signed⟩ 0
    [.thread 0 true, .thread 0 true, .accept true 0, .thread 1 true, .thread 1 true]) _ []
    (List.append_nil _).symm
  obtain ⟨hfd, -⟩ := hall 0 .bound (by decide) (by decide)
  exact absurd hfd (by decide)

/-! ### What is left of the sockets -/

/-- **No receive socket is ever closed.** -/
theorem never_closed (m : Machine) (err : Int) (es : List Event) :
    ∀ s ∈ (es.foldl (serverStep m) (boot err)).net.socks, s ≠ .closed := by
  have hrun : ∀ p : Parent, (∀ s ∈ p.net.socks, s ≠ .closed) →
      ∀ s ∈ (es.foldl (serverStep m) p).net.socks, s ≠ .closed := by
    induction es with
    | nil => exact fun p h => h
    | cons e es ih => exact fun p h => ih _ (serverStep_open m p e h)
  exact hrun _ (by simp [boot_socks])

/-- The thread with number `k` is started for a client, and gets to its loop. -/
def serveClient (k : Nat) : List Event := [.accept true 0, .thread k true, .thread k true]

/-- What a thread leaves that opens its socket undisturbed. -/
theorem udpBroadcastInit_ok (m : Machine) (n : Sockets) :
    (udpBroadcastInit m broadcastAddr true true n).2 =
      ⟨n.socks ++ [.bound], some n.socks.length⟩ := by
  have hcan : (openSocket true n).canBind = true := by
    simp [Sockets.canBind, openSocket]
  have hbind := bindSocket_broadcast m true (openSocket true n)
  rw [hcan] at hbind
  refine hbind.trans ?_
  simp [Sockets.set, openSocket]

/-- **The sockets accumulate**: each client leaves one more that is open. -/
theorem socks_serveClient (m : Machine) (n : Nat) :
    let p := ((List.range' 1 n).flatMap serveClient).foldl (serverStep m)
      (threadStep m (threadStep m (boot 0) 0 true) 0 true)
    p.net.socks = List.replicate (n + 1) .bound ∧ p.threads.length = n + 1 := by
  induction n with
  | zero =>
    intro p
    have hinit := threadStep_init m (p := boot 0) (i := 0) (c := false) rfl true
    rw [udpBroadcastInit_ok] at hinit
    show (threadStep m (threadStep m (boot 0) 0 true) 0 true).net.socks = _ ∧
      (threadStep m (threadStep m (boot 0) 0 true) 0 true).threads.length = _
    rw [hinit]
    exact ⟨rfl, rfl⟩
  | succ n ih =>
    intro p
    obtain ⟨hsocks, hlen⟩ := ih
    generalize hq : ((List.range' 1 n).flatMap serveClient).foldl (serverStep m)
      (threadStep m (threadStep m (boot 0) 0 true) 0 true) = q at hsocks hlen
    -- The new thread stands at the end of the list.
    have hcancel : (cancel q).threads.length = n + 1 := by
      unfold cancel
      split
      · simpa using hlen
      · exact hlen
    have haccept : serverStep m q (.accept true 0) = startUDPrecv 0 (cancel q) := rfl
    have hnet := (accept_same m q true 0).1
    have hthread : (serverStep m q (.accept true 0)).threads[1 + n]? = some ⟨.init, false⟩ := by
      rw [haccept]
      show ((cancel q).threads ++ [⟨.init, false⟩])[1 + n]? = _
      rw [List.getElem?_append_right (by omega),
        show 1 + n - (cancel q).threads.length = 0 by omega]
      rfl
    have hinit := threadStep_init m hthread true
    rw [udpBroadcastInit_ok, hnet, hsocks] at hinit
    have hp : p = threadStep m (threadStep m (serverStep m q (.accept true 0)) (1 + n) true)
        (1 + n) true := by
      show List.foldl _ _ _ = _
      rw [List.range'_1_concat, List.flatMap_append, List.foldl_append, hq]
      rfl
    rw [hp, hinit]
    refine ⟨?_, ?_⟩
    · exact (List.replicate_succ' ..).symm
    · rw [List.length_set, haccept]
      show ((cancel q).threads ++ [(⟨.init, false⟩ : Thread)]).length = _
      rw [List.length_append, hcancel]
      rfl

end SerialServer.Mrs2s
