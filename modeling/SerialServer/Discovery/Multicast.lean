import Mathlib.Logic.Function.Basic
import SerialServer.Core.Run

/-!
# SerialServer.Discovery.Multicast

How the device opens its two multicast sockets (`mrs_v102.c`).

`msend` and `mrcv` open a socket at their first call and keep it. What each call of the system
gives is part of a call here (`MsEnv`, `MrEnv`). When a socket cannot be opened or set up the
initialisers clean up and report it, all but one branch; but their callers do not return then:
they loop for ever, and `msend` does so while it holds the lock that both threads send under.
So a start-up is recoverable only if nothing fails in it (`recoverable_iff`).
-/

namespace SerialServer.Multicast

/-- What has been done to a socket. -/
structure Sock where
  /-- `IP_MULTICAST_IF`. -/
  multicastIf : Bool
  /-- `SO_REUSEADDR`. -/
  reuseAddr : Bool
  bound : Bool
  /-- `IP_ADD_MEMBERSHIP`. -/
  joined : Bool
  deriving Repr, DecidableEq

/-- A socket as `socket` gives it. -/
def Sock.new : Sock := ⟨false, false, false, false⟩

/-- The threads of the device that use the sockets: `thread_send` and `thread_rcv`. -/
inductive Thread
  | send
  | rcv
  deriving Repr, DecidableEq

/-- The globals of `mrs_v102.c` the sockets are kept in, and what the system knows. -/
structure Net where
  /-- `sdmsOpen` is not 0. -/
  sdmsOpen : Bool
  /-- `sdms`, if it is a descriptor. -/
  sdms : Option Nat
  /-- `sdmrOpen` is not 0. -/
  sdmrOpen : Bool
  sdmr : Option Nat
  /-- The open sockets, by descriptor. -/
  socks : Nat → Option Sock
  /-- A descriptor that has not been given out yet. -/
  next : Nat
  /-- How often `socket` has been called. -/
  attempts : Nat
  /-- The thread that holds `lock`. -/
  lock : Option Thread
  /-- The threads that do not return from a call. -/
  stuck : Thread → Bool

/-- What the calls of the system in `msend` give: whether they succeed. -/
structure MsEnv where
  socket : Bool
  multicastIf : Bool
  sendto : Bool
  deriving Repr, DecidableEq

/-- What the calls of the system in `mrcv` give. -/
structure MrEnv where
  socket : Bool
  reuseAddr : Bool
  bind : Bool
  membership : Bool
  read : Bool
  deriving Repr, DecidableEq

/-! ### The system -/

/-- `socket`. -/
def socket (ok : Bool) (s : Net) : Option Nat × Net :=
  let s := { s with attempts := s.attempts + 1 }
  if ok then
    (some s.next, { s with
      socks := Function.update s.socks s.next (some Sock.new), next := s.next + 1 })
  else (none, s)

/-- `close`. -/
def close (fd : Nat) (s : Net) : Net := { s with socks := Function.update s.socks fd none }

/-- A `setsockopt` or `bind` that succeeds. -/
def setup (fd : Nat) (f : Sock → Sock) (s : Net) : Net :=
  { s with socks := Function.update s.socks fd ((s.socks fd).map f) }

/-! ### The program

The result of a function is what it returns, or `none` when it does not return, and the state
it leaves. -/

/-- `msinit`. -/
def msinit (env : MsEnv) (s : Net) : Option Int × Net :=
  if s.sdmsOpen then (some (-11), s)
  else
    let s := { s with sdmsOpen := true }
    let (fd, s) := socket env.socket s
    let s := { s with sdms := fd }
    match fd with
    -- `for(;;);`: the `return -1` behind it is not reached.
    | none => (none, s)
    | some fd =>
        if env.multicastIf then (some 0, setup fd (fun k => { k with multicastIf := true }) s)
        else (some (-2), { close fd s with sdmsOpen := false })

/-- `msend`. -/
def msend (env : MsEnv) (s : Net) : Option Int × Net :=
  let (init, s) := if !s.sdmsOpen then msinit env s else (some 0, s)
  if init = none then (none, s)
  -- The socket is not open, whatever `msinit` has returned: `for(;;);`.
  else if !s.sdmsOpen then (none, s)
  else if env.sendto then (some 0, s)
  else (some (-3), s)

/-- `ms_ser2net`, from the lock on, called by thread `who`. A thread waits for the lock as long
as another one holds it. -/
def msSer2net (who : Thread) (env : MsEnv) (s : Net) : Option Int × Net :=
  if s.lock ≠ none then (none, s)
  else
    let (sent, s) := msend env { s with lock := some who }
    if sent = none then (none, s)
    else (some 0, { s with lock := none })

/-- `mrinit`. -/
def mrinit (env : MrEnv) (s : Net) : Option Int × Net :=
  if s.sdmrOpen then (some (-1), s)
  else
    let s := { s with sdmrOpen := true }
    let (fd, s) := socket env.socket s
    let s := { s with sdmr := fd }
    match fd with
    | none => (some (-2), { s with sdmrOpen := false })
    | some fd =>
        if !env.reuseAddr then (some (-3), { close fd s with sdmrOpen := false })
        else
          let s := setup fd (fun k => { k with reuseAddr := true }) s
          if !env.bind then (some (-33), { close fd s with sdmrOpen := false })
          else
            let s := setup fd (fun k => { k with bound := true }) s
            if !env.membership then (some (-4), { close fd s with sdmrOpen := false })
            else (some 0, setup fd (fun k => { k with joined := true }) s)

/-- `mrcv`. -/
def mrcv (env : MrEnv) (s : Net) : Option Int × Net :=
  let s := if !s.sdmrOpen then (mrinit env s).2 else s
  if !s.sdmrOpen then (none, s)
  else if env.read then (some 0, s)
  else (some (-5), s)

/-! ### Runs -/

/-- A call by one of the threads. -/
inductive SockCall
  | msend (who : Thread) (env : MsEnv)
  | mrcv (env : MrEnv)

/-- The thread that makes a call. -/
def SockCall.who : SockCall → Thread
  | .msend who _ => who
  | .mrcv _ => .rcv

/-- What a call comes to. -/
def SockCall.exec (s : Net) : SockCall → Option Int × Net
  | .msend who env => msSer2net who env s
  | .mrcv env => Multicast.mrcv env s

/-- The state after a call. A thread that has not returned makes no further call. -/
def step (s : Net) (c : SockCall) : Net :=
  if s.stuck c.who then s
  else if (c.exec s).1 = none then
    { (c.exec s).2 with stuck := Function.update s.stuck c.who true }
  else (c.exec s).2

/-- `sdmsOpen` is set just when `sdms` is an open socket with its option set. -/
def MsOpen (s : Net) : Prop :=
  s.sdmsOpen = true ↔ ∃ fd k, s.sdms = some fd ∧ s.socks fd = some k ∧ k.multicastIf = true

/-- `sdmrOpen` is set just when `sdmr` is an open socket that is bound and has joined. -/
def MrOpen (s : Net) : Prop :=
  s.sdmrOpen = true ↔ ∃ fd k, s.sdmr = some fd ∧ s.socks fd = some k ∧
    k.reuseAddr = true ∧ k.bound = true ∧ k.joined = true

/-- The sockets in use are the only open ones. -/
def NoLeak (s : Net) : Prop :=
  ∀ fd, s.socks fd ≠ none →
    (s.sdmsOpen = true ∧ s.sdms = some fd) ∨ (s.sdmrOpen = true ∧ s.sdmr = some fd)

/-- As long as a socket is not open, a call by a thread that is free tries to open it. -/
structure Retries (s : Net) : Prop where
  send : s.sdmsOpen = false → ∀ who env, s.stuck who = false →
    (step s (.msend who env)).attempts = s.attempts + 1
  receive : s.sdmrOpen = false → ∀ env, s.stuck .rcv = false →
    (step s (.mrcv env)).attempts = s.attempts + 1

/-- The call returns, and leaves everything as a later call needs it. -/
structure Recovers (s : Net) (c : SockCall) : Prop where
  returns : (c.exec s).1 ≠ none
  free : (step s c).stuck c.who = false
  unlocked : (step s c).lock = none
  msOpen : MsOpen (step s c)
  mrOpen : MrOpen (step s c)
  noLeak : NoLeak (step s c)
  retries : Retries (step s c)

/-- The socket of the call is open, or every call of the system that opens it succeeds. -/
def Opens (s : Net) : SockCall → Prop
  | .msend _ env => s.sdmsOpen = true ∨ (env.socket = true ∧ env.multicastIf = true)
  | .mrcv env => s.sdmrOpen = true ∨
      (env.socket = true ∧ env.reuseAddr = true ∧ env.bind = true ∧ env.membership = true)

/-- What holds between the calls of a run in which nothing has failed. -/
structure Sound (s : Net) : Prop where
  free : ∀ who, s.stuck who = false
  unlocked : s.lock = none
  msOpen : MsOpen s
  mrOpen : MrOpen s
  noLeak : NoLeak s
  fresh : ∀ fd, s.socks fd ≠ none → fd < s.next

/-- The device before its first call. -/
def boot : Net where
  sdmsOpen := false
  sdms := none
  sdmrOpen := false
  sdmr := none
  socks := fun _ => none
  next := 0
  attempts := 0
  lock := none
  stuck := fun _ => false

theorem sound_boot : Sound boot where
  free := fun _ => rfl
  unlocked := rfl
  msOpen := by simp [MsOpen, boot]
  mrOpen := by simp [MrOpen, boot]
  noLeak := fun fd h => absurd rfl h
  fresh := fun fd h => absurd rfl h

/-! ### One call -/

/-- What a call that opens the sending socket leaves. -/
def msOpened (s : Net) : Net :=
  { s with
    sdmsOpen := true
    sdms := some s.next
    socks := Function.update s.socks s.next (some { Sock.new with multicastIf := true })
    next := s.next + 1
    attempts := s.attempts + 1 }

/-- What a call that opens the receiving socket leaves. -/
def mrOpened (s : Net) : Net :=
  { s with
    sdmrOpen := true
    sdmr := some s.next
    socks := Function.update s.socks s.next
      (some { Sock.new with reuseAddr := true, bound := true, joined := true })
    next := s.next + 1
    attempts := s.attempts + 1 }

/-- What a call of the system does to the socket that was opened last. -/
theorem setup_eq {s : Net} {socks : Nat → Option Sock} {fd : Nat} {k : Sock}
    (h : s.socks = Function.update socks fd (some k)) (f : Sock → Sock) :
    setup fd f s = { s with socks := Function.update socks fd (some (f k)) } := by
  rw [setup, h, Function.update_self, Function.update_idem, Option.map_some]

theorem setup_setup (fd : Nat) (f g : Sock → Sock) (s : Net) :
    setup fd g (setup fd f s) = setup fd (g ∘ f) s := by
  simp only [setup, Function.update_self, Function.update_idem, Option.map_map]

/-- An open socket is used as it is. -/
theorem msSer2net_open {s : Net} (hlock : s.lock = none) (hopen : s.sdmsOpen = true)
    (who : Thread) (env : MsEnv) : msSer2net who env s = (some 0, s) := by
  obtain ⟨sdmsOpen, sdms, sdmrOpen, sdmr, socks, next, attempts, lock, stuck⟩ := s
  dsimp only at hlock hopen
  subst hlock hopen
  obtain ⟨socket, multicastIf, sendto⟩ := env
  cases sendto <;> rfl

/-- A start-up in which nothing fails opens the socket. -/
theorem msSer2net_opens {s : Net} (hlock : s.lock = none) (hclosed : s.sdmsOpen = false)
    (who : Thread) {env : MsEnv} (hsocket : env.socket = true) (hif : env.multicastIf = true) :
    msSer2net who env s = (some 0, msOpened s) := by
  obtain ⟨sdmsOpen, sdms, sdmrOpen, sdmr, socks, next, attempts, lock, stuck⟩ := s
  obtain ⟨socket, multicastIf, sendto⟩ := env
  dsimp only at hlock hclosed hsocket hif
  subst hlock hclosed hsocket hif
  have hsend : msSer2net who ⟨true, true, sendto⟩
      ⟨false, sdms, sdmrOpen, sdmr, socks, next, attempts, none, stuck⟩ =
        (some 0, setup next (fun k => { k with multicastIf := true })
          ⟨true, some next, sdmrOpen, sdmr, Function.update socks next (some Sock.new), next + 1,
            attempts + 1, none, stuck⟩) := by
    cases sendto <;> rfl
  rw [hsend, setup_eq rfl]
  rfl

/-- **A start-up in which something fails does not return.** -/
theorem msSer2net_fails {s : Net} (hclosed : s.sdmsOpen = false) (who : Thread) {env : MsEnv}
    (hfail : ¬ (env.socket = true ∧ env.multicastIf = true)) :
    (msSer2net who env s).1 = none := by
  obtain ⟨sdmsOpen, sdms, sdmrOpen, sdmr, socks, next, attempts, lock, stuck⟩ := s
  obtain ⟨socket, multicastIf, sendto⟩ := env
  dsimp only at hclosed hfail
  subst hclosed
  cases lock with
  -- Another thread keeps the lock for ever.
  | some _ => rfl
  | none =>
    cases socket with
    | false => rfl
    | true =>
      cases multicastIf with
      | false => rfl
      | true => exact absurd ⟨rfl, rfl⟩ hfail

/-- Every start-up calls `socket`. -/
theorem msSer2net_attempts {s : Net} (hlock : s.lock = none) (hclosed : s.sdmsOpen = false)
    (who : Thread) (env : MsEnv) : (msSer2net who env s).2.attempts = s.attempts + 1 := by
  obtain ⟨sdmsOpen, sdms, sdmrOpen, sdmr, socks, next, attempts, lock, stuck⟩ := s
  obtain ⟨socket, multicastIf, sendto⟩ := env
  dsimp only at hlock hclosed
  subst hlock hclosed
  cases socket <;> cases multicastIf <;> cases sendto <;> rfl

theorem mrcv_open {s : Net} (hopen : s.sdmrOpen = true) (env : MrEnv) :
    mrcv env s = (if env.read then some 0 else some (-5), s) := by
  obtain ⟨sdmsOpen, sdms, sdmrOpen, sdmr, socks, next, attempts, lock, stuck⟩ := s
  dsimp only at hopen
  subst hopen
  obtain ⟨socket, reuseAddr, bind, membership, read⟩ := env
  cases read <;> rfl

theorem mrcv_opens {s : Net} (hclosed : s.sdmrOpen = false) {env : MrEnv}
    (hsocket : env.socket = true) (hreuse : env.reuseAddr = true) (hbind : env.bind = true)
    (hmember : env.membership = true) :
    mrcv env s = (if env.read then some 0 else some (-5), mrOpened s) := by
  obtain ⟨sdmsOpen, sdms, sdmrOpen, sdmr, socks, next, attempts, lock, stuck⟩ := s
  obtain ⟨socket, reuseAddr, bind, membership, read⟩ := env
  dsimp only at hclosed hsocket hreuse hbind hmember
  subst hclosed hsocket hreuse hbind hmember
  have hinit : (mrinit ⟨true, true, true, true, read⟩
      ⟨sdmsOpen, sdms, false, sdmr, socks, next, attempts, lock, stuck⟩).2 =
        setup next (fun k => { k with joined := true })
          (setup next (fun k => { k with bound := true })
            (setup next (fun k => { k with reuseAddr := true })
              ⟨sdmsOpen, sdms, true, some next, Function.update socks next (some Sock.new),
                next + 1, attempts + 1, lock, stuck⟩)) := rfl
  have hopened : (mrinit ⟨true, true, true, true, read⟩
      ⟨sdmsOpen, sdms, false, sdmr, socks, next, attempts, lock, stuck⟩).2 =
        mrOpened ⟨sdmsOpen, sdms, false, sdmr, socks, next, attempts, lock, stuck⟩ := by
    rw [hinit, setup_setup, setup_setup, setup_eq rfl]
    rfl
  have hread : ∀ t, (mrinit ⟨true, true, true, true, read⟩
      ⟨sdmsOpen, sdms, false, sdmr, socks, next, attempts, lock, stuck⟩).2 = t →
        mrcv ⟨true, true, true, true, read⟩
          ⟨sdmsOpen, sdms, false, sdmr, socks, next, attempts, lock, stuck⟩ =
            if !t.sdmrOpen then (none, t) else if read then (some 0, t) else (some (-5), t) := by
    rintro t rfl
    rfl
  rw [hread _ hopened]
  cases read <;> rfl

theorem mrcv_fails {s : Net} (hclosed : s.sdmrOpen = false) {env : MrEnv}
    (hfail : ¬ (env.socket = true ∧ env.reuseAddr = true ∧ env.bind = true ∧
      env.membership = true)) : (mrcv env s).1 = none := by
  obtain ⟨sdmsOpen, sdms, sdmrOpen, sdmr, socks, next, attempts, lock, stuck⟩ := s
  obtain ⟨socket, reuseAddr, bind, membership, read⟩ := env
  dsimp only at hclosed hfail
  subst hclosed
  cases socket with
  | false => rfl
  | true =>
    cases reuseAddr with
    | false => rfl
    | true =>
      cases bind with
      | false => rfl
      | true =>
        cases membership with
        | false => rfl
        | true => exact absurd ⟨rfl, rfl, rfl, rfl⟩ hfail

theorem mrcv_attempts {s : Net} (hclosed : s.sdmrOpen = false) (env : MrEnv) :
    (mrcv env s).2.attempts = s.attempts + 1 := by
  obtain ⟨sdmsOpen, sdms, sdmrOpen, sdmr, socks, next, attempts, lock, stuck⟩ := s
  obtain ⟨socket, reuseAddr, bind, membership, read⟩ := env
  dsimp only at hclosed
  subst hclosed
  cases socket <;> cases reuseAddr <;> cases bind <;> cases membership <;> cases read <;> rfl

/-- A thread that is free makes its call. -/
theorem step_attempts {s : Net} {c : SockCall} (hfree : s.stuck c.who = false) :
    (step s c).attempts = (c.exec s).2.attempts := by
  unfold step
  rw [if_neg (by simp [hfree])]
  split <;> rfl

theorem Sound.retries {s : Net} (h : Sound s) : Retries s where
  send := fun hclosed who env hfree =>
    (step_attempts (c := .msend who env) hfree).trans
      (msSer2net_attempts h.unlocked hclosed who env)
  receive := fun hclosed env hfree =>
    (step_attempts (c := .mrcv env) hfree).trans (mrcv_attempts hclosed env)

/-! ### The invariant -/

section New

variable {s : Net} {new : Sock}

/-- A socket that is open after another one was opened is the new one, or was open before. -/
theorem open_of_update {fd : Nat}
    (h : Function.update s.socks s.next (some new) fd ≠ none) :
    fd = s.next ∨ s.socks fd ≠ none := by
  by_cases hnew : fd = s.next
  · exact .inl hnew
  · rw [Function.update_of_ne hnew] at h
    exact .inr h

/-- A new socket is not mistaken for one that it is not set up as. -/
theorem exists_update_iff (h : Sound s) {P : Sock → Prop} (hnew : ¬ P new) (x : Option Nat) :
    (∃ fd k, x = some fd ∧ s.socks fd = some k ∧ P k) ↔
      ∃ fd k, x = some fd ∧ Function.update s.socks s.next (some new) fd = some k ∧ P k := by
  constructor
  · rintro ⟨fd, k, hfd, hk, hP⟩
    have hlt := h.fresh fd (by simp [hk])
    refine ⟨fd, k, hfd, ?_, hP⟩
    rw [Function.update_of_ne (by omega), hk]
  · rintro ⟨fd, k, hfd, hk, hP⟩
    by_cases heq : fd = s.next
    · rw [heq, Function.update_self] at hk
      obtain rfl := Option.some.inj hk
      exact absurd hP hnew
    · rw [Function.update_of_ne heq] at hk
      exact ⟨fd, k, hfd, hk, hP⟩

theorem fresh_update (h : Sound s) (fd : Nat)
    (hfd : Function.update s.socks s.next (some new) fd ≠ none) : fd < s.next + 1 := by
  rcases open_of_update hfd with rfl | hold
  · exact Nat.lt_succ_self _
  · exact Nat.lt_succ_of_lt (h.fresh fd hold)

end New

/-- Opening the sending socket leaves a sound state. -/
theorem Sound.msOpened {s : Net} (h : Sound s) (hclosed : s.sdmsOpen = false) :
    Sound (msOpened s) where
  free := h.free
  unlocked := h.unlocked
  msOpen := iff_of_true rfl ⟨s.next, { Sock.new with multicastIf := true }, rfl,
    Function.update_self s.next _ s.socks, rfl⟩
  mrOpen := h.mrOpen.trans (exists_update_iff h (by rintro ⟨⟨⟩, -⟩) s.sdmr)
  noLeak := by
    intro fd hfd
    rcases open_of_update hfd with rfl | hold
    · exact .inl ⟨rfl, rfl⟩
    · rcases h.noLeak fd hold with ⟨hopen, -⟩ | hmr
      · rw [hclosed] at hopen
        cases hopen
      · exact .inr hmr
  fresh := fresh_update h

/-- Opening the receiving socket leaves a sound state. -/
theorem Sound.mrOpened {s : Net} (h : Sound s) (hclosed : s.sdmrOpen = false) :
    Sound (mrOpened s) where
  free := h.free
  unlocked := h.unlocked
  msOpen := h.msOpen.trans
    (exists_update_iff h (P := fun k => k.multicastIf = true) (by rintro ⟨⟩) s.sdms)
  mrOpen := iff_of_true rfl ⟨s.next,
    { Sock.new with reuseAddr := true, bound := true, joined := true }, rfl,
    Function.update_self s.next _ s.socks, rfl, rfl, rfl⟩
  noLeak := by
    intro fd hfd
    rcases open_of_update hfd with rfl | hold
    · exact .inr ⟨rfl, rfl⟩
    · rcases h.noLeak fd hold with hms | ⟨hopen, -⟩
      · exact .inl hms
      · rw [hclosed] at hopen
        cases hopen
  fresh := fresh_update h

/-- **A call that opens its socket, or finds it open, returns** and leaves a sound state. -/
theorem exec_opens {s : Net} (h : Sound s) {c : SockCall} (hc : Opens s c) :
    (c.exec s).1 ≠ none ∧ Sound (c.exec s).2 := by
  cases c with
  | msend who env =>
    by_cases hopen : s.sdmsOpen = true
    · rw [SockCall.exec, msSer2net_open h.unlocked hopen]
      exact ⟨Option.some_ne_none _, h⟩
    · have hclosed : s.sdmsOpen = false := Bool.eq_false_iff.2 hopen
      obtain ⟨hsocket, hif⟩ := hc.resolve_left hopen
      rw [SockCall.exec, msSer2net_opens h.unlocked hclosed who hsocket hif]
      exact ⟨Option.some_ne_none _, h.msOpened hclosed⟩
  | mrcv env =>
    have hread : (if env.read then some 0 else some (-5) : Option Int) ≠ none := by
      cases env.read <;> exact Option.some_ne_none _
    by_cases hopen : s.sdmrOpen = true
    · rw [SockCall.exec, mrcv_open hopen]
      exact ⟨hread, h⟩
    · have hclosed : s.sdmrOpen = false := Bool.eq_false_iff.2 hopen
      obtain ⟨hsocket, hreuse, hbind, hmember⟩ := hc.resolve_left hopen
      rw [SockCall.exec, mrcv_opens hclosed hsocket hreuse hbind hmember]
      exact ⟨hread, h.mrOpened hclosed⟩

/-- Any other call does not return. -/
theorem exec_fails {s : Net} {c : SockCall} (hc : ¬ Opens s c) : (c.exec s).1 = none := by
  cases c with
  | msend who env =>
    obtain ⟨hopen, hfail⟩ := not_or.1 hc
    exact msSer2net_fails (Bool.eq_false_iff.2 hopen) who hfail
  | mrcv env =>
    obtain ⟨hopen, hfail⟩ := not_or.1 hc
    exact mrcv_fails (Bool.eq_false_iff.2 hopen) hfail

theorem step_opens {s : Net} (h : Sound s) {c : SockCall} (hc : Opens s c) :
    step s c = (c.exec s).2 := by
  rw [step, if_neg (by simp [h.free]), if_neg (exec_opens h hc).1]

/-- **A call recovers exactly when nothing fails in it.** -/
theorem recovers_iff {s : Net} (h : Sound s) (c : SockCall) : Recovers s c ↔ Opens s c := by
  constructor
  · intro hr
    by_contra hc
    exact hr.returns (exec_fails hc)
  · intro hc
    obtain ⟨hret, hsound⟩ := exec_opens h hc
    rw [← step_opens h hc] at hsound
    exact ⟨hret, hsound.free _, hsound.unlocked, hsound.msOpen, hsound.mrOpen, hsound.noLeak,
      hsound.retries⟩

/-- **The calls of a run all recover exactly when no start-up in it fails**: when each call
finds its socket open, or opens it with calls of the system that all succeed. -/
theorem recoverable_iff (cs : List SockCall) :
    Run.EachStep step Recovers boot cs ↔ Run.EachStep step Opens boot cs := by
  refine Run.eachStep_iff sound_boot (fun s c h => recovers_iff h c) fun s c h hc => ?_
  rw [step_opens h hc]
  exact (exec_opens h hc).2

/-- When the interface is not up at the first `msend`, that call does not return, and neither
does any later call that sends, of either thread. -/
theorem not_recoverable :
    (¬ ∀ cs : List SockCall, Run.EachStep step Recovers boot cs) ∧
      ∀ who env, (SockCall.exec (step boot (.msend .send ⟨true, false, true⟩))
        (.msend who env)).1 = none := by
  refine ⟨fun h => ?_, fun who env => rfl⟩
  exact (h [.msend .send ⟨true, false, true⟩]).1.returns rfl

end SerialServer.Multicast
