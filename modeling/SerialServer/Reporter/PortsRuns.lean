import Mathlib.Logic.Relation
import SerialServer.Core.Run
import SerialServer.Reporter.Outcome

/-!
# SerialServer.Reporter.PortsRuns

What an event can do to the list of ports.

A `Change` is the little that can happen to it: a callback of one port, other settings of one, a
port in the place of another, one less and one more. Every event is a sequence of changes
(`step_changes`), and what holds of the list in every run is proved of changes.

So a device has one connection at most (`devices_exclusive`), and however often the ports have
been configured anew, each is in a state its own callbacks lead to (`ports_reached`).
-/

namespace SerialServer.Dataxfer

open Roster

/-! ### Changes of the list -/

/-- What holds of a port in the list. -/
structure PortInfo.Sound (p : PortInfo) : Prop where
  wellFormed : p.port.WellFormed
  states : p.port.Connected ∨ p.port.Idle
  /-- A new configuration is one of the same port, and is the one that counts. -/
  pending : ∀ c, p.newConfig = some c → c.name = p.name ∧ c.configNum ≠ none ∧
    (p.configNum = none ∨ p.configNum = c.configNum)
  /-- Nothing is put off for a port without a connection. -/
  settled : p.port.Idle → p.newConfig = none ∧ p.configNum ≠ none

/-- The list, and the number the next port gets. -/
abbrev Roll := List PortInfo × Nat

/-- The list of the program. -/
def Ports.roll (s : Ports) : Roll := (s.ports, s.nextId)

/-- A device of the list is in use by another port. -/
def Roll.inuse (l : List PortInfo) (p : PortInfo) : Bool :=
  l.any fun q => q.id ≠ p.id && q.conf.devname = p.conf.devname &&
    q.port.tcpToDevState ≠ .unconnected

/-- What holds of the list. -/
structure Roll.Sound (r : Roll) : Prop where
  ids : (r.1.map PortInfo.id).Nodup
  below : ∀ p ∈ r.1, p.id < r.2
  names : (r.1.map PortInfo.name).Nodup
  each : ∀ p ∈ r.1, p.Sound

/-- One thing that can happen to the list. -/
inductive Change : Roll → Roll → Prop
  /-- A callback of a connection, unless it has to make room for something else. -/
  | session {l l' : List PortInfo} {n : Nat} {p : PortInfo} {a : Action} (inuse : Bool) :
      a.ofConnection = true →
      ((callback p.conf inuse p.port a).ended = true → p.newConfig = none ∧ p.configNum ≠ none) →
      Change (l ++ p :: l', n)
        (l ++ { p with port := (callback p.conf inuse p.port a).port } :: l', n)
  /-- A client arrives. -/
  | accepted {l l' : List PortInfo} {n : Nat} {p : PortInfo} {env : SetupEnv} :
      Change (l ++ p :: l', n)
        (l ++ { p with port := (handleAcceptPortRead p.conf (Roll.inuse (l ++ p :: l') p) env
          p.port).port } :: l', n)
  /-- The settings of a port change, but for its device. -/
  | amended {l l' : List PortInfo} {n : Nat} {p p' : PortInfo} (state : PortState) :
      p'.id = p.id → p'.conf = p.conf → p'.port = { p.port with enabled := state } →
      (p.Sound → p'.Sound) → Change (l ++ p :: l', n) (l ++ p' :: l', n)
  /-- A port takes the place of another. -/
  | replaced {l l' : List PortInfo} {n : Nat} {p : PortInfo} {c : NewPort} (fd : Option Fd) :
      c.name = p.name → c.configNum ≠ none →
      Change (l ++ p :: l', n) (l ++ c.portInfo n fd :: l', n + 1)
  | removed {l l' : List PortInfo} {n : Nat} {p : PortInfo} :
      Change (l ++ p :: l', n) (l ++ l', n)
  | added {l : List PortInfo} {n : Nat} {c : NewPort} (fd : Option Fd) :
      c.name ∉ l.map PortInfo.name → c.configNum ≠ none →
      Change (l, n) (l ++ [c.portInfo n fd], n + 1)

/-- Changes, one after the other. -/
abbrev Changes : Roll → Roll → Prop := Relation.ReflTransGen Change

/-- A new port is sound. -/
theorem NewPort.portInfo_sound {c : NewPort} (hnum : c.configNum ≠ none) (id : Nat)
    (fd : Option Fd) : (c.portInfo id fd).Sound where
  wellFormed := initPortData_wellFormed _
  states := .inr (initPortData_idle _)
  pending := nofun
  settled := fun _ => ⟨rfl, hnum⟩

/-- A port stays sound through a callback of its connection. -/
theorem PortInfo.Sound.session {p : PortInfo} (hp : p.Sound) {a : Action} {inuse : Bool}
    (ha : a.ofConnection = true)
    (hlast : (callback p.conf inuse p.port a).ended = true →
      p.newConfig = none ∧ p.configNum ≠ none) :
    PortInfo.Sound { p with port := (callback p.conf inuse p.port a).port } := by
  rcases hp.states with hconn | hidle
  · have hout := callback_outcome p.conf inuse hconn ha
    refine ⟨(callback_moves p.conf inuse hp.wellFormed 0 a).wellFormed, ?_, hp.pending, ?_⟩
    · cases hended : (callback p.conf inuse p.port a).ended with
      | false => exact .inl (hout.goes hended)
      | true => exact .inr (hout.ends hended)
    · intro hidle
      cases hended : (callback p.conf inuse p.port a).ended with
      | false => exact absurd hidle.tcpToDev (hout.goes hended).tcpToDev
      | true => exact hlast hended
  · rw [callback_idle p.conf inuse hidle ha]
    exact hp

/-- A client that arrives leaves the port sound. -/
theorem PortInfo.Sound.accepted {p : PortInfo} (hp : p.Sound) (inuse : Bool) (env : SetupEnv) :
    PortInfo.Sound { p with port := (handleAcceptPortRead p.conf inuse env p.port).port } := by
  obtain ⟨-, -, hstates⟩ := handleAcceptPortRead_outcome p.conf inuse env p.port
  have hwell : (handleAcceptPortRead p.conf inuse env p.port).port.WellFormed := by
    have hcallback : Callback True p.port 0 (handleAcceptPortRead p.conf inuse env p.port) := by
      rcases handleAcceptPortRead_cases p.conf inuse env p.port with h | h
      · exact h.callback hp.wellFormed 0
      · exact h.callback hp.wellFormed 0
    exact hcallback.wellFormed
  rcases hstates with ⟨htcp, hdev⟩ | ⟨-, hconn⟩
  · refine ⟨hwell, ?_, hp.pending, fun hidle => hp.settled ⟨?_, ?_⟩⟩
    · rcases hp.states with hconn | hidle
      · exact .inl ⟨fun h => hconn.tcpToDev (htcp.symm.trans h),
          fun h => hconn.devToTcp (hdev.symm.trans h)⟩
      · exact .inr ⟨htcp.trans hidle.tcpToDev, hdev.trans hidle.devToTcp⟩
    · exact htcp.symm.trans hidle.tcpToDev
    · exact hdev.symm.trans hidle.devToTcp
  · exact ⟨hwell, .inl hconn, hp.pending, fun hidle => absurd hidle.tcpToDev hconn.tcpToDev⟩

/-- One port of the list is put in the place of another. -/
theorem Roll.Sound.middle {l l' : List PortInfo} {n m : Nat} {p q : PortInfo}
    (h : Roll.Sound (l ++ p :: l', n)) (hq : q.Sound) (hname : q.name = p.name)
    (hid : q.id = p.id ∧ m = n ∨ q.id = n ∧ m = n + 1) : Roll.Sound (l ++ q :: l', m) := by
  obtain ⟨hids, hbelow, hnames, heach⟩ := h
  have hrest : ∀ x ∈ l ++ l', x ∈ l ++ p :: l' := by
    intro x hx
    rcases List.mem_append.1 hx with hx | hx
    · exact List.mem_append_left _ hx
    · exact List.mem_append_right _ (List.mem_cons_of_mem _ hx)
  have hsplit : ∀ x, x ∈ l ++ q :: l' → x = q ∨ x ∈ l ++ p :: l' := by
    intro x hx
    rcases List.mem_append.1 hx with hx | hx
    · exact .inr (List.mem_append_left _ hx)
    · rcases List.mem_cons.1 hx with rfl | hx
      · exact .inl rfl
      · exact .inr (hrest x (List.mem_append_right _ hx))
  refine ⟨?_, ?_, ?_, ?_⟩
  · rcases hid with ⟨hid, -⟩ | ⟨hid, -⟩
    · simpa only [List.map_append, List.map_cons, hid] using hids
    · simp only [List.map_append, List.map_cons, List.nodup_middle, List.nodup_cons, hid] at hids ⊢
      refine ⟨fun hmem => ?_, hids.2⟩
      rw [← List.map_append] at hmem
      obtain ⟨x, hx, hxn⟩ := List.mem_map.1 hmem
      exact absurd hxn (hbelow x (hrest x hx)).ne
  · intro x hx
    rcases hsplit x hx with rfl | hold
    · rcases hid with ⟨hid, rfl⟩ | ⟨hid, rfl⟩
      · rw [hid]
        exact hbelow p (List.mem_append_right _ List.mem_cons_self)
      · rw [hid]
        exact Nat.lt_succ_self _
    · rcases hid with ⟨-, rfl⟩ | ⟨-, rfl⟩
      · exact hbelow x hold
      · exact Nat.lt_succ_of_lt (hbelow x hold)
  · simpa only [List.map_append, List.map_cons, hname] using hnames
  · intro x hx
    rcases hsplit x hx with rfl | hx
    · exact hq
    · exact heach x hx

/-- **A change keeps the list sound.** -/
theorem Change.sound {r r' : Roll} (h : Change r r') (hr : r.Sound) : r'.Sound := by
  cases h with
  | session inuse ha hlast =>
    exact hr.middle ((hr.each _ (by simp)).session ha hlast) rfl (.inl ⟨rfl, rfl⟩)
  | accepted => exact hr.middle ((hr.each _ (by simp)).accepted _ _) rfl (.inl ⟨rfl, rfl⟩)
  | amended state hid hconf hport hsound =>
    exact hr.middle (hsound (hr.each _ (by simp))) (congrArg PortConfig.portname hconf)
      (.inl ⟨hid, rfl⟩)
  | replaced fd hname hnum =>
    exact hr.middle (NewPort.portInfo_sound hnum _ _) hname (.inr ⟨rfl, rfl⟩)
  | @removed l l' n p =>
    have hsub : (l ++ l').Sublist (l ++ p :: l') :=
      (List.Sublist.refl l).append (List.sublist_cons_self p l')
    exact ⟨hr.ids.sublist (hsub.map _), fun x hx => hr.below x (hsub.subset hx),
      hr.names.sublist (hsub.map _), fun x hx => hr.each x (hsub.subset hx)⟩
  | @added l n c fd hname hnum =>
    refine ⟨nodup_concat hr.ids ?_, ?_, nodup_concat hr.names hname, ?_⟩
    · intro hmem
      obtain ⟨x, hx, hxn⟩ := List.mem_map.1 hmem
      exact absurd hxn (hr.below x hx).ne
    · intro x hx
      rcases List.mem_append.1 hx with hx | hx
      · exact Nat.lt_succ_of_lt (hr.below x hx)
      · rw [List.mem_singleton.1 hx]
        exact Nat.lt_succ_self _
    · intro x hx
      rcases List.mem_append.1 hx with hx | hx
      · exact hr.each x hx
      · rw [List.mem_singleton.1 hx]
        exact NewPort.portInfo_sound hnum _ _

theorem Changes.sound {r r' : Roll} (h : Changes r r') (hr : r.Sound) : r'.Sound := by
  induction h with
  | refl => exact hr
  | tail _ hchange ih => exact hchange.sound ih

/-! ### What the functions change -/

variable {s : Ports}

theorem startupPort_same (env : StartupEnv) (s : Ports) (p : PortInfo) :
    (startupPort env s p).1.roll = s.roll ∧
      ∃ fd, (startupPort env s p).2.1 = { p with acceptfd := fd } := by
  cases env with
  | invalid => exact ⟨rfl, p.acceptfd, rfl⟩
  | noSocket => exact ⟨rfl, none, rfl⟩
  | fails fd call => exact ⟨rfl, some fd, rfl⟩
  | listens fd => exact ⟨rfl, some fd, rfl⟩

theorem changePortState_same (env : StartupEnv) (s : Ports) (p : PortInfo) (state : PortState) :
    (changePortState env s p state).1.roll = s.roll ∧
      ∃ fd, (changePortState env s p state).2.1 =
        { p with acceptfd := fd, port := { p.port with enabled := state } } := by
  rw [changePortState]
  split
  · next hsame =>
    subst hsame
    exact ⟨rfl, p.acceptfd, rfl⟩
  split
  · exact ⟨rfl, none, rfl⟩
  split
  · obtain ⟨hroll, fd, hp⟩ := startupPort_same env s p
    refine ⟨hroll, fd, ?_⟩
    dsimp only
    rw [hp]
  · exact ⟨rfl, p.acceptfd, rfl⟩

theorem freePort_roll (s : Ports) (p : PortInfo) : (freePort s p).roll = s.roll :=
  (changePortState_same ..).1

theorem put_roll (hids : (s.ports.map PortInfo.id).Nodup) {l l' : List PortInfo}
    {p p' : PortInfo} (hl : s.ports = l ++ p :: l') (hid : p'.id = p.id) :
    (s.put p').roll = (l ++ p' :: l', s.nextId) := by
  rw [hl] at hids
  rw [Ports.roll, Ports.put, hl, hid, exchange_append hids]

theorem finishShutdown_roll (hids : (s.ports.map PortInfo.id).Nodup) {l l' : List PortInfo}
    {p : PortInfo} (hl : s.ports = l ++ p :: l') :
    (finishShutdown s p).roll =
      match p.configNum, p.newConfig with
      | none, _ => (l ++ l', s.nextId)
      | some _, none => s.roll
      | some _, some c => (l ++ c.portInfo s.nextId p.acceptfd :: l', s.nextId + 1) := by
  rw [hl] at hids
  rw [finishShutdown]
  split
  · next hnum =>
    obtain ⟨hroll, fd, hp⟩ := changePortState_same .invalid s p .disabled
    obtain ⟨hports, hnext⟩ := Prod.mk.inj hroll
    dsimp only
    rw [freePort_roll, hp, Ports.roll, hports, hnext, hl, discard_append hids, hnum]
  · next k hnum =>
    rw [hnum]
    split
    · next hnone => rw [hnone]
    · next c hsome =>
      dsimp only
      rw [hsome, freePort_roll, Ports.roll, hl, exchange_append hids]

/-- What a callback has come to, in the list. -/
theorem leave_roll (hs : s.roll.Sound) {l l' : List PortInfo} {p : PortInfo}
    (hl : s.ports = l ++ p :: l') (r : Result) :
    (s.leave p r).roll =
      match r.ended, p.configNum, p.newConfig with
      | true, none, _ => (l ++ l', s.nextId)
      | true, some _, some c => (l ++ c.portInfo s.nextId p.acceptfd :: l', s.nextId + 1)
      | _, _, _ => (l ++ { p with port := r.port } :: l', s.nextId) := by
  have hput : (s.put { p with port := r.port }).roll =
      (l ++ { p with port := r.port } :: l', s.nextId) := put_roll hs.ids hl rfl
  rw [Ports.leave]
  cases hended : r.ended with
  | false => exact hput
  | true =>
    -- The list with the port that has no connection any more need not be sound.
    obtain ⟨hports, hnext⟩ := Prod.mk.inj hput
    have hids : ((s.put { p with port := r.port }).ports.map PortInfo.id).Nodup := by
      have hids : ((l ++ p :: l').map PortInfo.id).Nodup := hl ▸ hs.ids
      rw [hports]
      simpa only [List.map_append, List.map_cons] using hids
    rw [if_pos rfl, finishShutdown_roll hids hports, hput, hnext]
    dsimp only
    split
    · next hnum => rw [hnum]
    · next k hnum hnew => rw [hnum, hnew]
    · next k c hnum hnew => rw [hnum, hnew]

/-- What a callback has come to is a change of the list. -/
theorem leave_changes (hs : s.roll.Sound) {l l' : List PortInfo} {p : PortInfo}
    (hl : s.ports = l ++ p :: l') {r : Result}
    (hchange : (r.ended = true → p.newConfig = none ∧ p.configNum ≠ none) →
      Change (l ++ p :: l', s.nextId) (l ++ { p with port := r.port } :: l', s.nextId)) :
    Changes s.roll (s.leave p r).roll := by
  rw [leave_roll hs hl, show s.roll = (l ++ p :: l', s.nextId) by rw [Ports.roll, hl]]
  split
  · exact .single .removed
  · next k c hended hnum hnew =>
    have hp : p.Sound := hs.each p (by rw [Ports.roll, hl]; simp)
    obtain ⟨hname, hc, -⟩ := hp.pending c hnew
    exact .single (.replaced p.acceptfd hname hc)
  · next hnot hnew =>
    refine .single (hchange fun hended => ?_)
    cases hnum : p.configNum with
    | none => exact absurd hnum (hnot hended)
    | some k =>
      cases hc : p.newConfig with
      | none => exact ⟨rfl, nofun⟩
      | some c => exact absurd hc (hnew k c hended hnum)

theorem run_changes (hs : s.roll.Sound) {p : PortInfo} (hp : p ∈ s.ports) {a : Action}
    (ha : a.ofConnection = true) : Changes s.roll (s.run p a).roll := by
  obtain ⟨l, l', hl⟩ := List.append_of_mem hp
  rw [Ports.run]
  split
  · exact .refl
  · exact leave_changes hs hl fun hlast => .session _ ha hlast

theorem connect_changes (hs : s.roll.Sound) (fd : Fd) (env : SetupEnv) :
    Changes s.roll (s.connect fd env).roll := by
  rw [Ports.connect]
  split
  · exact .refl
  split
  · exact .refl
  · next p hfind =>
    obtain ⟨l, l', hl⟩ := List.append_of_mem (List.mem_of_find?_eq_some hfind)
    refine leave_changes hs hl fun _ => ?_
    have hinuse : s.inuse p = Roll.inuse (l ++ p :: l') p := by rw [Ports.inuse, Roll.inuse, hl]
    rw [hinuse]
    exact .accepted

/-- What a line says is the configuration of a port of that name. -/
theorem newPort_ok {line : ConfigLine} {k : Nat} {c : NewPort} (h : line.newPort k = .ok c) :
    c.conf = line.conf ∧ c.configNum = some k := by
  rw [ConfigLine.newPort] at h
  split at h
  · cases h
  split at h
  · cases h
  split at h
  · cases h
  split at h
  · cases h
  · cases h
    exact ⟨rfl, rfl⟩

theorem find_name {name : PortName} {p : PortInfo}
    (h : s.ports.find? (·.name = name) = some p) : p ∈ s.ports ∧ p.name = name :=
  ⟨List.mem_of_find?_eq_some h, by simpa using List.find?_some h⟩

theorem replacePort_roll (hs : s.roll.Sound) {l l' : List PortInfo} {curr : PortInfo}
    (hl : s.ports = l ++ curr :: l') {c : NewPort} (hname : c.name = curr.name)
    (hnum : c.configNum ≠ none) (env : StartupEnv) :
    ∃ fd, (replacePort env s curr c).roll = (l ++ c.portInfo s.nextId fd :: l', s.nextId + 1) := by
  have hids : ((l ++ curr :: l').map PortInfo.id).Nodup := hl ▸ hs.ids
  let q := { c.portInfo s.nextId curr.acceptfd with port := initPortData curr.port.enabled }
  have hq : q.Sound := ⟨initPortData_wellFormed _, .inr (initPortData_idle _), nofun,
    fun _ => ⟨rfl, hnum⟩⟩
  have hold : Roll.Sound (l ++ curr :: l', s.nextId) := by
    rw [← hl]
    exact hs
  have hmiddle : Roll.Sound (l ++ q :: l', s.nextId + 1) := hold.middle hq hname (.inr ⟨rfl, rfl⟩)
  rw [replacePort]
  dsimp only
  generalize hs₁ : freePort { s with
      ports := exchange PortInfo.id curr.id q s.ports
      nextId := s.nextId + 1
      handlers := grant s.handlers curr.acceptfd q.id }
    { curr with acceptfd := none, port := { curr.port with enabled := .disabled } } = s₁
  have hroll : s₁.roll = (l ++ q :: l', s.nextId + 1) := by
    rw [← hs₁, freePort_roll, Ports.roll, hl, exchange_append hids]
  obtain ⟨hsame, fd, hport⟩ := changePortState_same env s₁ q c.enabled
  refine ⟨fd, ?_⟩
  obtain ⟨hports, hnext⟩ := Prod.mk.inj (hsame.trans hroll)
  have hsound : (changePortState env s₁ q c.enabled).1.roll.Sound := by
    rw [hsame, hroll]
    exact hmiddle
  rw [put_roll hsound.ids hports (by rw [hport]), hport, hnext]
  rfl

theorem postponePort_changes (hs : s.roll.Sound) {curr : PortInfo} (hp : curr ∈ s.ports)
    (hconn : curr.unconnected = false) {c : NewPort} (hname : c.name = curr.name)
    (hnum : c.configNum ≠ none) : Changes s.roll (postponePort s curr c).roll := by
  obtain ⟨l, l', hl⟩ := List.append_of_mem hp
  have hroll : s.roll = (l ++ curr :: l', s.nextId) := by rw [Ports.roll, hl]
  have hdev : curr.port.devToTcpState ≠ .unconnected := of_decide_eq_false hconn
  rw [postponePort]
  dsimp only
  generalize hport : (if curr.newConfig.isSome = true then
    { curr.port with enabled := .disabled } else curr.port) = port
  have hstate : ∃ state, port = { curr.port with enabled := state } := by
    rw [← hport]
    split
    · exact ⟨.disabled, rfl⟩
    · exact ⟨curr.port.enabled, rfl⟩
  obtain ⟨state, hstate⟩ := hstate
  have hput : (s.put { curr with
      port := port
      configNum := c.configNum
      newConfig := some c }).roll = (l ++ _ :: l', s.nextId) := put_roll hs.ids hl rfl
  rw [hput, hroll]
  refine .single (.amended state rfl rfl hstate fun hsound => ?_)
  have hstates : port.Connected := by
    rcases hsound.states with hconn | hidle
    · rw [hstate]
      exact ⟨hconn.tcpToDev, hconn.devToTcp⟩
    · exact absurd hidle.devToTcp hdev
  refine ⟨?_, .inl hstates, ?_, fun hidle => absurd hidle.tcpToDev hstates.tcpToDev⟩
  · exact Port.wellFormed_of_connected hstates.tcpToDev
  · rintro c' hc'
    obtain rfl := Option.some.inj hc'
    exact ⟨hname, hnum, .inr rfl⟩

theorem addPort_roll (env : StartupEnv) (s : Ports) (c : NewPort) :
    ((addPort env s c).2 = none ∧ ∃ fd,
        (addPort env s c).1.roll = (s.ports ++ [c.portInfo s.nextId fd], s.nextId + 1)) ∨
      (addPort env s c).2 ≠ none ∧ (addPort env s c).1.roll = s.roll := by
  rw [addPort]
  dsimp only
  have hstart : ∃ s' fd rv, (if c.enabled ≠ .disabled then
        startupPort env s (c.portInfo s.nextId none)
      else (s, c.portInfo s.nextId none, none)) = (s', c.portInfo s.nextId fd, rv) ∧
      s'.roll = s.roll := by
    split
    · obtain ⟨hroll, fd, hp⟩ := startupPort_same env s (c.portInfo s.nextId none)
      refine ⟨(startupPort env s (c.portInfo s.nextId none)).1, fd,
        (startupPort env s (c.portInfo s.nextId none)).2.2, ?_, hroll⟩
      rw [show c.portInfo s.nextId fd = { c.portInfo s.nextId none with acceptfd := fd } from rfl,
        ← hp]
    · exact ⟨s, none, none, rfl, rfl⟩
  obtain ⟨s', fd, rv, hstart, hroll⟩ := hstart
  obtain ⟨hports, hnext⟩ := Prod.mk.inj hroll
  rw [hstart]
  cases rv with
  | some error =>
    right
    exact ⟨nofun, (freePort_roll _ _).trans hroll⟩
  | none =>
    left
    refine ⟨rfl, fd, ?_⟩
    dsimp only [Ports.roll]
    rw [hports, hnext]

theorem portconfig_changes (hs : s.roll.Sound) (env : StartupEnv) (line : ConfigLine) (k : Nat) :
    Changes s.roll (portconfig env s line k).1.roll := by
  rw [portconfig]
  split
  · exact .refl
  next c hc =>
  have hnum : c.configNum ≠ none := by
    rw [(newPort_ok hc).2]
    nofun
  split
  · next curr hfind =>
    obtain ⟨hp, hname⟩ := find_name hfind
    split
    · obtain ⟨l, l', hl⟩ := List.append_of_mem hp
      obtain ⟨fd, hroll⟩ := replacePort_roll hs hl hname.symm hnum env
      have hstart : s.roll = (l ++ curr :: l', s.nextId) := by rw [Ports.roll, hl]
      rw [hroll, hstart]
      exact .single (.replaced fd hname.symm hnum)
    · next hconn =>
      exact postponePort_changes hs hp (by simpa using hconn) hname.symm hnum
  · next hnone =>
    have hnew : c.name ∉ s.ports.map PortInfo.name := by
      rintro hmem
      obtain ⟨p, hp, hname⟩ := List.mem_map.1 hmem
      exact absurd hname (of_decide_eq_false (by simpa using List.find?_eq_none.1 hnone p hp))
    rcases addPort_roll env s c with ⟨-, fd, hroll⟩ | ⟨-, hroll⟩
    · rw [hroll]
      exact .single (.added fd hnew hnum)
    · rw [hroll]

theorem clearOldPorts_changes {k : Nat} {l rest : List PortInfo} {s : Ports} :
    (clearOldPorts k s rest).1.roll = s.roll ∧ (Roll.Sound (l ++ rest, s.nextId) →
      Changes (l ++ rest, s.nextId) (l ++ (clearOldPorts k s rest).2, s.nextId)) := by
  induction rest generalizing l s with
  | nil => exact ⟨rfl, fun _ => .refl⟩
  | cons p rest ih =>
    rw [clearOldPorts]
    -- A port that stays, as `p'`.
    have hstays : ∀ p', (Roll.Sound (l ++ p :: rest, s.nextId) →
          Changes (l ++ p :: rest, s.nextId) (l ++ p' :: rest, s.nextId)) →
        (clearOldPorts k s rest).1.roll = s.roll ∧ (Roll.Sound (l ++ p :: rest, s.nextId) →
          Changes (l ++ p :: rest, s.nextId)
            (l ++ p' :: (clearOldPorts k s rest).2, s.nextId)) := by
      intro p' hp'
      obtain ⟨hroll, hrest⟩ := @ih (l ++ [p']) s
      rw [List.append_assoc, List.append_assoc] at hrest
      exact ⟨hroll, fun hsound => (hp' hsound).trans (hrest ((hp' hsound).sound hsound))⟩
    split
    · split
      · obtain ⟨hroll, hrest⟩ := @ih l (freePort s p)
        have hnext : (freePort s p).nextId = s.nextId := congrArg Prod.snd (freePort_roll s p)
        rw [hnext] at hrest
        refine ⟨hroll.trans (freePort_roll s p), fun hsound => ?_⟩
        have hremoved : Change (l ++ p :: rest, s.nextId) (l ++ rest, s.nextId) := .removed
        exact (Relation.ReflTransGen.single hremoved).trans (hrest (hremoved.sound hsound))
      · next hconn =>
        refine hstays _ fun hsound => .single (.amended p.port.enabled rfl rfl rfl fun hp => ?_)
        refine ⟨hp.wellFormed, hp.states, fun c hc => ?_, fun hidle => absurd hidle.devToTcp ?_⟩
        · obtain ⟨hname, hnum, -⟩ := hp.pending c hc
          exact ⟨hname, hnum, .inl rfl⟩
        · simpa [PortInfo.unconnected] using hconn
    · exact hstays p fun _ => .refl

theorem clearOldPortConfig_changes (hs : s.roll.Sound) (k : Nat) :
    Changes s.roll (clearOldPortConfig s k).roll := by
  obtain ⟨hroll, hchanges⟩ := @clearOldPorts_changes k [] s.ports s
  have hnext : (clearOldPorts k s s.ports).1.nextId = s.nextId := congrArg Prod.snd hroll
  rw [clearOldPortConfig, Ports.roll, Ports.roll]
  dsimp only
  rw [hnext]
  exact hchanges hs

/-- Other settings of a port that stay out of its connection. -/
theorem PortInfo.Sound.settings {p : PortInfo} (hp : p.Sound) (state : PortState)
    (fd : Option Fd) (timeout : Nat) :
    PortInfo.Sound { p with
      timeout := timeout
      acceptfd := fd
      port := { p.port with enabled := state } } where
  wellFormed := ⟨hp.wellFormed.devfd, hp.wellFormed.received, hp.wellFormed.sent⟩
  states := hp.states.imp (fun h => ⟨h.tcpToDev, h.devToTcp⟩) fun h => ⟨h.tcpToDev, h.devToTcp⟩
  pending := hp.pending
  settled := fun hidle => hp.settled ⟨hidle.tcpToDev, hidle.devToTcp⟩

theorem shutdownLoop_changes {l rest : List PortInfo} {s s' : Ports} (hs : s.roll.Sound)
    (hl : s.ports = l ++ rest) (h : shutdownLoop s rest = some s') : Changes s.roll s'.roll := by
  induction rest generalizing l s with
  | nil =>
    obtain rfl := Option.some.inj h
    exact .refl
  | cons p rest ih =>
    rw [shutdownLoop] at h
    split at h
    · cases h
    next hgoes =>
    have hp : p.Sound := hs.each p (by rw [Ports.roll, hl]; simp)
    -- The connection is there, and is closing now.
    have hconn : p.port.Connected := by
      rcases hp.states with hconn | hidle
      · exact hconn
      · refine absurd ?_ hgoes
        rw [shutdownPort]
        simp [hp.wellFormed.devfd hidle.tcpToDev, Result.ended, finishShutdownPort]
    have hcallback : callback p.conf false p.port .disconnect = shutdownPort p.port := by
      unfold callback
      rw [if_neg (by simpa [Action.ready] using hconn.tcpToDev)]
    have hclosing : Change (l ++ p :: rest, s.nextId)
        (l ++ { p with port := (shutdownPort p.port).port } :: rest, s.nextId) := by
      rw [← hcallback]
      exact .session false rfl fun hended => absurd (hcallback ▸ hended) hgoes
    have hmarked : Change
        (l ++ { p with port := (shutdownPort p.port).port } :: rest, s.nextId)
        (l ++ { p with configNum := none, port := (shutdownPort p.port).port } :: rest,
          s.nextId) := by
      refine .amended (shutdownPort p.port).port.enabled rfl rfl rfl fun hq => ?_
      have hgoes' := (shutdownPort_outcome hconn).goes (by simpa using hgoes)
      refine ⟨hq.wellFormed, hq.states, fun c hc => ?_, fun hidle =>
        absurd hidle.tcpToDev hgoes'.tcpToDev⟩
      obtain ⟨hname, hnum, -⟩ := hq.pending c hc
      exact ⟨hname, hnum, .inl rfl⟩
    have hput : (s.put { p with configNum := none, port := (shutdownPort p.port).port }).roll =
        (l ++ { p with configNum := none, port := (shutdownPort p.port).port } :: rest,
          s.nextId) := put_roll hs.ids hl rfl
    have hchanges : Changes s.roll
        (s.put { p with configNum := none, port := (shutdownPort p.port).port }).roll := by
      rw [hput, Ports.roll, hl]
      exact (Relation.ReflTransGen.single hclosing).tail hmarked
    have hports : (s.put { p with configNum := none, port := (shutdownPort p.port).port }).ports =
        (l ++ [{ p with configNum := none, port := (shutdownPort p.port).port }]) ++ rest := by
      rw [← List.append_cons]
      exact (Prod.mk.inj hput).1
    exact hchanges.trans (ih (hchanges.sound hs) hports h)

/-! ### What crashes the program -/

theorem changePortState_crashed (env : StartupEnv) (s : Ports) (p : PortInfo) (state : PortState) :
    (changePortState env s p state).1.crashed = s.crashed := by
  rw [changePortState]
  split
  · rfl
  split
  · rfl
  split
  · cases env with
    | invalid => rfl
    | noSocket => rfl
    | fails fd call => rfl
    | listens fd => rfl
  · rfl

theorem freePort_crashed (s : Ports) (p : PortInfo) : (freePort s p).crashed = s.crashed :=
  changePortState_crashed .invalid s p .disabled

theorem finishShutdown_crashed (s : Ports) (p : PortInfo) :
    (finishShutdown s p).crashed = s.crashed := by
  rw [finishShutdown]
  split
  · exact (freePort_crashed _ _).trans (changePortState_crashed .invalid s p .disabled)
  · split
    · rfl
    · exact freePort_crashed _ _

theorem leave_crashed (s : Ports) (p : PortInfo) (r : Result) :
    (s.leave p r).crashed = s.crashed := by
  rw [Ports.leave]
  split
  · exact finishShutdown_crashed ..
  · rfl

theorem addPort_crashed (env : StartupEnv) (s : Ports) (c : NewPort) :
    (addPort env s c).1.crashed = s.crashed := by
  rw [addPort]
  dsimp only
  by_cases hon : c.enabled ≠ .disabled
  · rw [if_pos hon]
    cases env with
    | invalid => exact freePort_crashed s _
    | noSocket => exact freePort_crashed s _
    | fails fd call => exact freePort_crashed s _
    | listens fd => rfl
  · rw [if_neg hon]

/-- Reading the configuration does not. -/
theorem portconfig_crashed (env : StartupEnv) (s : Ports) (line : ConfigLine) (k : Nat) :
    (portconfig env s line k).1.crashed = s.crashed := by
  rw [portconfig]
  split
  · rfl
  split
  · split
    · rw [replacePort]
      exact (changePortState_crashed ..).trans (freePort_crashed _ _)
    · rfl
  · exact addPort_crashed ..

theorem clearOldPorts_crashed {k : Nat} {rest : List PortInfo} {s : Ports} :
    (clearOldPorts k s rest).1.crashed = s.crashed := by
  induction rest generalizing s with
  | nil => rfl
  | cons p rest ih =>
    rw [clearOldPorts]
    split
    · split
      · rw [ih, freePort_crashed]
      · exact ih
    · exact ih

/-- **Every event is a sequence of changes.** -/
theorem step_changes (hs : s.roll.Sound) (ev : PortsEvent) : Changes s.roll (s.step ev).roll := by
  rw [Ports.step]
  split
  · next hready =>
    obtain ⟨-, hready⟩ := Bool.and_eq_true_iff.1 hready
    cases ev with
    | portconfig env line k => exact portconfig_changes hs env line k
    | clearOldPortConfig k => exact clearOldPortConfig_changes hs k
    | connect fd env => exact connect_changes hs fd env
    | callback id a =>
      rw [Ports.perform]
      split
      · exact .refl
      · next p hfind =>
        have ha : a.ofConnection = true := by
          unfold Action.ofConnection
          rw [show a.ofSelector = true from hready, Bool.true_or]
        exact run_changes hs (List.mem_of_find?_eq_some hfind) ha
    | setporttimeout name timeout =>
      rw [Ports.perform, Dataxfer.setporttimeout]
      split
      · exact .refl
      · next p hfind =>
        obtain ⟨l, l', hl⟩ := List.append_of_mem (find_name hfind).1
        have hput : (s.put { p with timeout := timeout }).roll = (l ++ _ :: l', s.nextId) :=
          put_roll hs.ids hl rfl
        rw [hput, Ports.roll, hl]
        exact .single (.amended p.port.enabled rfl rfl rfl fun hp =>
          hp.settings p.port.enabled p.acceptfd timeout)
    | setportenable env name enable =>
      rw [Ports.perform, Dataxfer.setportenable]
      split
      · exact .refl
      next p hfind =>
      split
      · exact .refl
      next state hstate =>
      obtain ⟨l, l', hl⟩ := List.append_of_mem (find_name hfind).1
      obtain ⟨hroll, fd, hp⟩ := changePortState_same env s p state
      obtain ⟨hports, hnext⟩ := Prod.mk.inj hroll
      have hsound : (changePortState env s p state).1.roll.Sound := hroll ▸ hs
      dsimp only
      rw [put_roll hsound.ids (hports.trans hl) (by rw [hp]), hp, hnext, Ports.roll, hl]
      exact .single (.amended state rfl rfl rfl fun hp => hp.settings state fd p.timeout)
    | disconnectPort name =>
      rw [Ports.perform, Dataxfer.disconnectPort]
      split
      · exact .refl
      next p hfind =>
      split
      · exact .refl
      · exact run_changes hs (find_name hfind).1 rfl
    | shutdownPorts =>
      rw [Ports.perform, Dataxfer.shutdownPorts]
      cases hloop : shutdownLoop s s.ports with
      | none => exact .refl
      | some s' => exact shutdownLoop_changes (l := []) hs rfl hloop
  · exact .refl

theorem start_sound : Ports.start.roll.Sound :=
  ⟨List.nodup_nil, fun _ h => absurd h List.not_mem_nil, List.nodup_nil,
    fun _ h => absurd h List.not_mem_nil⟩

/-- **The list is sound in every state.** -/
theorem run_sound (evs : List PortsEvent) : (evs.foldl Ports.step Ports.start).roll.Sound :=
  Run.EachStep.foldl (I := fun s : Ports => s.roll.Sound) (C := fun _ _ => True) start_sound
    (fun _ ev hs _ => (step_changes hs ev).sound hs) (Run.EachStep.of_forall fun _ _ => trivial)

/-! ### Devices -/

/-- Two ports do not use one device. -/
def PortInfo.Apart (p q : PortInfo) : Prop :=
  p.port.Connected → q.port.Connected → p.conf.devname ≠ q.conf.devname

theorem PortInfo.Apart.symm {p q : PortInfo} (h : p.Apart q) : q.Apart p :=
  fun hq hp hsame => h hp hq hsame.symm

/-- No two ports use one device. -/
def Roll.Exclusive (r : Roll) : Prop := r.1.Pairwise PortInfo.Apart

/-- A port in the place of another may use its device. -/
theorem Roll.Exclusive.middle {l l' : List PortInfo} {n m : Nat} {p q : PortInfo}
    (h : Roll.Exclusive (l ++ p :: l', n))
    (hq : q.port.Connected → (p.port.Connected ∧ q.conf = p.conf) ∨
      ∀ x ∈ l ++ l', x.port.Connected → q.conf.devname ≠ x.conf.devname) :
    Roll.Exclusive (l ++ q :: l', m) := by
  rw [Roll.Exclusive, List.pairwise_middle PortInfo.Apart.symm, List.pairwise_cons] at h ⊢
  refine ⟨fun x hx hconn hx' => ?_, h.2⟩
  rcases hq hconn with ⟨hp, hconf⟩ | hfree
  · rw [hconf]
    exact h.1 x hx hp hx'
  · exact hfree x hx hx'

theorem Port.Idle.not_connected {p : Port} (h : p.Idle) : ¬ p.Connected :=
  fun hc => hc.tcpToDev h.tcpToDev

theorem Change.exclusive {r r' : Roll} (h : Change r r') (hr : r.Sound) (hex : r.Exclusive) :
    r'.Exclusive := by
  cases h with
  | @session l l' n p a inuse ha hlast =>
    refine hex.middle fun hconn => .inl ⟨?_, rfl⟩
    rcases (hr.each p (by simp)).states with hc | hidle
    · exact hc
    · have hsame : (callback p.conf inuse p.port a).port = p.port := by
        rw [callback_idle p.conf inuse hidle ha]
      exact hsame ▸ hconn
  | @accepted l l' n p env =>
    obtain ⟨-, -, hstates⟩ := handleAcceptPortRead_outcome p.conf (Roll.inuse (l ++ p :: l') p) env
      p.port
    refine hex.middle fun hconn => ?_
    rcases hstates with ⟨htcp, hdev⟩ | ⟨hfree, -⟩
    · exact .inl ⟨⟨fun h => hconn.tcpToDev (htcp.trans h), fun h => hconn.devToTcp (hdev.trans h)⟩,
        rfl⟩
    · refine .inr fun x hx hxconn hsame => ?_
      -- Another port uses the device, and `is_device_already_inuse` has found it.
      have hids := hr.ids
      simp only [List.map_append, List.map_cons, List.nodup_middle, List.nodup_cons] at hids
      have hne : x.id ≠ p.id := by
        intro heq
        refine hids.1 ?_
        rw [← List.map_append, ← heq]
        exact List.mem_map_of_mem hx
      rw [Roll.inuse, List.any_eq_false] at hfree
      refine hfree x ?_ ?_
      · rcases List.mem_append.1 hx with hx | hx
        · exact List.mem_append_left _ hx
        · exact List.mem_append_right _ (List.mem_cons_of_mem _ hx)
      · simp [hne, hxconn.tcpToDev, show x.conf.devname = p.conf.devname from hsame.symm]
  | amended state hid hconf hport hsound =>
    refine hex.middle fun hconn => .inl ⟨?_, hconf⟩
    rw [hport] at hconn
    exact ⟨hconn.tcpToDev, hconn.devToTcp⟩
  | replaced fd hname hnum =>
    exact hex.middle fun hconn => absurd hconn (initPortData_idle _).not_connected
  | @removed l l' n p =>
    exact List.Pairwise.sublist ((List.Sublist.refl l).append (List.sublist_cons_self p l')) hex
  | added fd hname hnum =>
    refine List.pairwise_append.2 ⟨hex, List.pairwise_singleton _ _, fun x _ q hq => ?_⟩
    rw [List.mem_singleton.1 hq]
    exact fun _ hconn => absurd hconn (initPortData_idle _).not_connected

theorem Changes.exclusive {r r' : Roll} (h : Changes r r') (hr : r.Sound) (hex : r.Exclusive) :
    r'.Exclusive := by
  induction h with
  | refl => exact hex
  | tail hbefore hchange ih => exact hchange.exclusive (Changes.sound hbefore hr) ih

/-- **A device has one connection at most**, in every state of every run, whatever ports are
added, taken away and configured anew. -/
theorem devices_exclusive (evs : List PortsEvent) :
    (evs.foldl Ports.step Ports.start).ports.Pairwise PortInfo.Apart := by
  have hboth : (evs.foldl Ports.step Ports.start).roll.Sound ∧
      (evs.foldl Ports.step Ports.start).roll.Exclusive := by
    refine Run.EachStep.foldl (I := fun s : Ports => s.roll.Sound ∧ s.roll.Exclusive)
      (C := fun _ _ => True) ⟨start_sound, List.Pairwise.nil⟩ ?_
      (Run.EachStep.of_forall fun _ _ => trivial)
    rintro s ev ⟨hs, hex⟩ -
    have hchanges := step_changes hs ev
    exact ⟨hchanges.sound hs, hchanges.exclusive hs hex⟩
  exact hboth.2

/-! ### The states of a port -/

/-- Callbacks lead to this state of a port, from its configuration on. -/
inductive Port.Reached (cfg : PortConfig) : Port → Prop
  | init (state : PortState) : Reached cfg (initPortData state)
  | callback {p : Port} (inuse : Bool) (a : Action) :
      Reached cfg p → Reached cfg (callback cfg inuse p a).port

theorem Port.Reached.changeState {cfg : PortConfig} {p : Port} (h : p.Reached cfg)
    (state : PortState) : Port.Reached cfg { p with enabled := state } :=
  .callback false (.changeState state) h

/-- A client that arrives at a port that is off is treated as at one in raw mode. -/
theorem handleAcceptPortRead_disabled (cfg : PortConfig) (inuse : Bool) (env : SetupEnv) {p : Port}
    (hoff : p.enabled = .disabled) :
    (handleAcceptPortRead cfg inuse env p).port =
      { (handleAcceptPortRead cfg inuse env { p with enabled := .raw }).port with
        enabled := .disabled } := by
  obtain ⟨enabled, tcpfd, _, _, _, _, _, _, state, _, _, _, _, _, _, _, _⟩ := p
  obtain rfl : enabled = .disabled := hoff
  rw [handleAcceptPortRead, handleAcceptPortRead]
  dsimp only
  split
  · rfl
  split
  · rfl
  split
  · rfl
  split
  · rfl
  have hmode : decide (PortState.raw ≠ .rawlp) = decide (PortState.disabled ≠ .rawlp) := rfl
  rw [setupTcpPort, setupTcpPort]
  dsimp only
  rw [hmode]
  split
  · rfl
  split
  · rfl
  split
  · rfl
  split
  · rfl
  split
  · rfl
  split
  · rfl
  · rfl

theorem Port.Reached.accept {cfg : PortConfig} {p : Port} (h : p.Reached cfg) (inuse : Bool)
    (env : SetupEnv) : Port.Reached cfg (handleAcceptPortRead cfg inuse env p).port := by
  have hon : ∀ q : Port, q.Reached cfg → q.enabled ≠ .disabled →
      Port.Reached cfg (handleAcceptPortRead cfg inuse env q).port := by
    intro q hq henabled
    have hcallback : Dataxfer.callback cfg inuse q (.accept env) =
        handleAcceptPortRead cfg inuse env q := by
      unfold Dataxfer.callback
      rw [if_neg (by simpa [Action.ready] using henabled)]
    rw [← hcallback]
    exact .callback inuse (.accept env) hq
  by_cases hoff : p.enabled = .disabled
  · rw [handleAcceptPortRead_disabled cfg inuse env hoff]
    exact (hon _ (h.changeState .raw) (by simp)).changeState .disabled
  · exact hon p h hoff

/-- Every port is in a state its callbacks lead to. -/
def Roll.Reached (r : Roll) : Prop := ∀ p ∈ r.1, p.port.Reached p.conf

theorem Roll.Reached.middle {l l' : List PortInfo} {n m : Nat} {p q : PortInfo}
    (h : Roll.Reached (l ++ p :: l', n)) (hq : q.port.Reached q.conf) :
    Roll.Reached (l ++ q :: l', m) := by
  intro x hx
  rcases List.mem_append.1 hx with hx | hx
  · exact h x (List.mem_append_left _ hx)
  · rcases List.mem_cons.1 hx with rfl | hx
    · exact hq
    · exact h x (List.mem_append_right _ (List.mem_cons_of_mem _ hx))

theorem Change.reached {r r' : Roll} (h : Change r r') (hr : r.Reached) : r'.Reached := by
  cases h with
  | @session l l' n p a inuse ha hlast => exact hr.middle ((hr p (by simp)).callback inuse a)
  | @accepted l l' n p env => exact hr.middle ((hr p (by simp)).accept _ env)
  | @amended l l' n p p' state hid hconf hport hsound =>
    refine hr.middle ?_
    rw [hport, hconf]
    exact (hr p (by simp)).changeState state
  | replaced fd hname hnum => exact hr.middle (.init _)
  | @removed l l' n p =>
    exact fun x hx =>
      hr x (((List.Sublist.refl l).append (List.sublist_cons_self p l')).subset hx)
  | added fd hname hnum =>
    intro x hx
    rcases List.mem_append.1 hx with hx | hx
    · exact hr x hx
    · rw [List.mem_singleton.1 hx]
      exact .init _

theorem Changes.reached {r r' : Roll} (h : Changes r r') (hr : r.Reached) : r'.Reached := by
  induction h with
  | refl => exact hr
  | tail _ hchange ih => exact hchange.reached ih

/-- **Every port of every run is one of the reporter's model**: under its own configuration, its
callbacks lead to the state it is in. -/
theorem ports_reached (evs : List PortsEvent) :
    ∀ p ∈ (evs.foldl Ports.step Ports.start).ports, p.port.Reached p.conf := by
  have hboth : (evs.foldl Ports.step Ports.start).roll.Sound ∧
      (evs.foldl Ports.step Ports.start).roll.Reached := by
    refine Run.EachStep.foldl (I := fun s : Ports => s.roll.Sound ∧ s.roll.Reached)
      (C := fun _ _ => True) ⟨start_sound, fun _ h => absurd h List.not_mem_nil⟩ ?_
      (Run.EachStep.of_forall fun _ _ => trivial)
    rintro s ev ⟨hs, hr⟩ -
    have hchanges := step_changes hs ev
    exact ⟨hchanges.sound hs, hchanges.reached hr⟩
  exact hboth.2

/-- A port with a client. -/
theorem ports_reached_client :
    let line : ConfigLine := ⟨⟨['2', '0', '0', '1'], ['a'], true, none, none, none,
      ⟨false, [], 256⟩, 31⟩, true, "telnet".toList, some 0, true⟩
    let s := [.portconfig (.listens 3) line 1,
      .connect 3 ⟨true, true, true, true, true, true, true, true, 0⟩].foldl Ports.step Ports.start
    ∃ p ∈ s.ports, p.port.tcpToDevState = .waitingInput ∧ p.port.Reached p.conf := by
  intro line s
  obtain ⟨p, hp⟩ : ∃ p, s.ports = [p] := ⟨_, rfl⟩
  have hmem : p ∈ s.ports := hp ▸ List.mem_singleton_self p
  refine ⟨p, hmem, ?_, ports_reached _ p hmem⟩
  have hstates : s.ports.map (·.port.tcpToDevState) = [.waitingInput] := by decide +kernel
  rw [hp] at hstates
  exact List.head_eq_of_cons_eq hstates

end SerialServer.Dataxfer
