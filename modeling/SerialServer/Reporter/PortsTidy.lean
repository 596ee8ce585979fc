import SerialServer.Reporter.PortsRuns

/-!
# SerialServer.Reporter.PortsTidy

When the ports that are enabled are those that listen.

As long as that is so, and nothing is used that is no longer there, the state of the program is
`Tidy`. The steps that keep it so are the `Clean` ones: a port that is turned on gets its socket;
a connection makes way for a new configuration that is on or off as the port is; no port that is
on and in use gets a new configuration when it has one already; no connection ends at once
because an open string, a banner or the telnet commands before a banner fail to be written, nor,
where the port is to be deleted or replaced, because any telnet commands do; and the program ends
while every port has a close string to write (`ports_tidy_iff`).

In runs of such steps every socket that listens has one port, and a client that arrives there is
given to that port (`ports_wired`).
-/

namespace SerialServer.Dataxfer

open Roster

/-- There is a socket for the clients of the port. -/
def Ports.Listens (s : Ports) (p : PortInfo) : Prop :=
  ∃ fd, p.acceptfd = some fd ∧ s.sockets fd = some p.name

/-- The ports that are enabled are those that listen, and nothing is used that has been freed. -/
structure Ports.Tidy (s : Ports) : Prop where
  listens : ∀ p ∈ s.ports, p.port.enabled ≠ .disabled ↔ s.Listens p
  sane : s.crashed = false

/-- The kernel has the sockets of the ports, and the selector calls these. -/
structure Ports.Wired (s : Ports) : Prop where
  sockets : Custody PortInfo.acceptfd PortInfo.name {p | p ∈ s.ports} s.sockets
  handlers : Custody PortInfo.acceptfd PortInfo.id {p | p ∈ s.ports} s.handlers

/-- What the functions keep that change the list and the sockets. -/
structure Ports.Kept (s : Ports) : Prop extends s.Wired where
  ids : (s.ports.map PortInfo.id).Nodup
  names : (s.ports.map PortInfo.name).Nodup
  below : ∀ p ∈ s.ports, p.id < s.nextId
  enabled : ∀ p ∈ s.ports, p.port.enabled = .disabled ↔ p.acceptfd = none

namespace Ports.Kept

variable {s : Ports} {p q : PortInfo}

theorem injOn_id (h : s.Kept) : Set.InjOn PortInfo.id {p | p ∈ s.ports} :=
  fun _ hp _ hq hid => eq_of_key h.ids hp hq hid

theorem injOn_name (h : s.Kept) : Set.InjOn PortInfo.name {p | p ∈ s.ports} :=
  fun _ hp _ hq hname => eq_of_key h.names hp hq hname

/-- A socket that is not there has no handler. -/
theorem handlers_free (h : s.Kept) {fd : Fd} (hfd : s.sockets fd = none) :
    s.handlers fd = none := h.handlers.free_iff.2 (h.sockets.free_iff.1 hfd)

/-- A port in the place of another. -/
theorem middle (h : s.Kept) (hp : p ∈ s.ports) {n : Nat} {sockets : Fd → Option PortName}
    {handlers : Fd → Option Nat} (crashed : Bool) (hname : q.name = p.name)
    (hid : q.id = p.id ∧ n = s.nextId ∨ q.id = s.nextId ∧ n = s.nextId + 1)
    (hsockets : Custody PortInfo.acceptfd PortInfo.name (insert q ({x | x ∈ s.ports} \ {p})) sockets)
    (hhandlers : Custody PortInfo.acceptfd PortInfo.id (insert q ({x | x ∈ s.ports} \ {p})) handlers)
    (henabled : q.port.enabled = .disabled ↔ q.acceptfd = none) :
    Kept ⟨exchange PortInfo.id p.id q s.ports, n, sockets, handlers, crashed⟩ := by
  have hset := setOf_mem_exchange (b := q) h.ids hp
  refine ⟨⟨hset ▸ hsockets, hset ▸ hhandlers⟩, nodup_exchange h.ids ?_, ?_, ?_, ?_⟩
  · rcases hid with ⟨hid, -⟩ | ⟨hid, -⟩
    · exact .inl hid
    · refine .inr fun hmem => ?_
      obtain ⟨x, hx, hxq⟩ := List.mem_map.1 hmem
      exact absurd (hxq.trans hid) (h.below x hx).ne
  · rw [map_exchange fun a ha hkey => hname.trans (congrArg _ (eq_of_key h.ids hp ha hkey.symm))]
    exact h.names
  · intro x hx
    rcases mem_of_mem_exchange hx with rfl | hold
    · rcases hid with ⟨hid, rfl⟩ | ⟨hid, rfl⟩
      · exact hid ▸ h.below p hp
      · exact hid ▸ Nat.lt_succ_self _
    · rcases hid with ⟨-, rfl⟩ | ⟨-, rfl⟩
      · exact h.below x hold
      · exact Nat.lt_succ_of_lt (h.below x hold)
  · intro x hx
    rcases mem_of_mem_exchange hx with rfl | hold
    · exact henabled
    · exact h.enabled x hold

/-- Another state of a port that is enabled or not as before. -/
theorem put (h : s.Kept) (hp : p ∈ s.ports) (hid : q.id = p.id) (hname : q.name = p.name)
    (hfd : q.acceptfd = p.acceptfd) (henabled : q.port.enabled = p.port.enabled) :
    (s.put q).Kept := by
  rw [Ports.put, hid]
  exact h.middle hp s.crashed hname (.inl ⟨hid, rfl⟩) (h.sockets.amend h.injOn_name hp hfd hname)
    (h.handlers.amend h.injOn_id hp hfd hid) (by rw [henabled, hfd, h.enabled p hp])

/-- A new port takes the place of another and its socket. -/
theorem succeed (h : s.Kept) (hp : p ∈ s.ports) (hid : q.id = s.nextId) (hname : q.name = p.name)
    (hfd : q.acceptfd = p.acceptfd)
    (henabled : q.port.enabled = .disabled ↔ p.port.enabled = .disabled) :
    Kept { s with
      ports := exchange PortInfo.id p.id q s.ports
      nextId := s.nextId + 1
      handlers := grant s.handlers p.acceptfd q.id } :=
  h.middle hp s.crashed hname (.inr ⟨hid, rfl⟩) (h.sockets.amend h.injOn_name hp hfd hname)
    (h.handlers.succeed h.injOn_id hp hfd) (by rw [henabled, hfd, h.enabled p hp])

/-- A port gives up its socket. -/
theorem close (h : s.Kept) (hp : p ∈ s.ports) :
    (Ports.put { s with
        sockets := revoke s.sockets p.acceptfd
        handlers := revoke s.handlers p.acceptfd }
      { p with acceptfd := none, port := { p.port with enabled := .disabled } }).Kept :=
  h.middle hp s.crashed rfl (.inl ⟨rfl, rfl⟩)
    ((h.sockets.erase h.injOn_name hp).insert nofun)
    ((h.handlers.erase h.injOn_id hp).insert nofun) (iff_of_true rfl rfl)

/-- A port without a socket gets one. -/
theorem listen (h : s.Kept) (hp : p ∈ s.ports) (hoff : p.port.enabled = .disabled) {fd : Fd}
    (hfd : s.sockets fd = none) {state : PortState} (hstate : state ≠ .disabled) :
    (Ports.put { s with
        sockets := grant s.sockets (some fd) p.name
        handlers := grant s.handlers (some fd) p.id }
      { p with acceptfd := some fd, port := { p.port with enabled := state } }).Kept := by
  have hnone : p.acceptfd = none := (h.enabled p hp).1 hoff
  have hsockets := h.sockets.erase h.injOn_name hp
  have hhandlers := h.handlers.erase h.injOn_id hp
  rw [hnone] at hsockets hhandlers
  refine h.middle hp s.crashed rfl (.inl ⟨rfl, rfl⟩) (hsockets.insert ?_) (hhandlers.insert ?_)
    (iff_of_false hstate nofun)
  · intro fd' hfd'
    obtain rfl := Option.some.inj hfd'
    exact hfd
  · intro fd' hfd'
    obtain rfl := Option.some.inj hfd'
    exact h.handlers_free hfd

/-- A port goes, with its socket. -/
theorem remove (h : s.Kept) (hp : p ∈ s.ports) :
    Kept { s with
      ports := discard PortInfo.id p.id s.ports
      sockets := revoke s.sockets p.acceptfd
      handlers := revoke s.handlers p.acceptfd } := by
  have hset := setOf_mem_discard h.ids hp
  have hsub : (discard PortInfo.id p.id s.ports).Sublist s.ports := List.filter_sublist
  exact ⟨⟨hset ▸ h.sockets.erase h.injOn_name hp, hset ▸ h.handlers.erase h.injOn_id hp⟩,
    h.ids.sublist (hsub.map _), h.names.sublist (hsub.map _),
    fun x hx => h.below x (hsub.subset hx), fun x hx => h.enabled x (hsub.subset hx)⟩

/-- A port comes, with its socket if it has one. -/
theorem add (h : s.Kept) (hid : q.id = s.nextId) (hname : q.name ∉ s.ports.map PortInfo.name)
    (hfree : ∀ fd, q.acceptfd = some fd → s.sockets fd = none)
    (henabled : q.port.enabled = .disabled ↔ q.acceptfd = none) :
    Kept { s with
      ports := s.ports ++ [q]
      nextId := s.nextId + 1
      sockets := grant s.sockets q.acceptfd q.name
      handlers := grant s.handlers q.acceptfd q.id } := by
  have hset : {x | x ∈ s.ports ++ [q]} = insert q {x | x ∈ s.ports} := by
    ext x
    simp [or_comm]
  have hsockets := h.sockets.insert hfree
  have hhandlers := h.handlers.insert fun fd hfd => h.handlers_free (hfree fd hfd)
  refine ⟨⟨hset ▸ hsockets, hset ▸ hhandlers⟩, nodup_concat h.ids ?_, nodup_concat h.names hname,
    ?_, ?_⟩
  · intro hmem
    obtain ⟨x, hx, hxq⟩ := List.mem_map.1 hmem
    exact absurd (hxq.trans hid) (h.below x hx).ne
  · intro x hx
    rcases List.mem_append.1 hx with hx | hx
    · exact Nat.lt_succ_of_lt (h.below x hx)
    · rw [List.mem_singleton.1 hx, hid]
      exact Nat.lt_succ_self _
  · intro x hx
    rcases List.mem_append.1 hx with hx | hx
    · exact h.enabled x hx
    · rw [List.mem_singleton.1 hx]
      exact henabled

end Ports.Kept

/-! ### Clean steps -/

/-- A port that is turned on gets its socket. -/
def StartupEnv.Starts (env : StartupEnv) (p : PortInfo) (state : PortState) : Prop :=
  p.port.enabled = .disabled → state ≠ .disabled → ∃ fd, env = .listens fd

/-- A connection that ends with the callback makes way only for a configuration that is on or off
as the port is. -/
def PortInfo.MakesWay (p : PortInfo) (r : Result) : Prop :=
  r.ended = true → p.configNum ≠ none → ∀ c, p.newConfig = some c →
    (c.enabled = .disabled ↔ p.port.enabled = .disabled)

/-- A callback of a connection uses what is there, and makes way as it should. -/
def Ports.CleanCallback (s : Ports) (p : PortInfo) (a : Action) : Prop :=
  p.misuses a (callback p.conf (s.inuse p) p.port a) = false ∧
    p.MakesWay (callback p.conf (s.inuse p) p.port a)

/-- The events that leave the state tidy. -/
def Ports.CleanEvent (s : Ports) : PortsEvent → Prop
  | .portconfig env line k => ∀ c, line.newPort k = .ok c → ∀ p ∈ s.ports, p.name = c.name →
      if p.unconnected then env.Starts p c.enabled
      else p.newConfig ≠ none → p.port.enabled = .disabled
  | .clearOldPortConfig _ => True
  | .connect _ _ => True
  | .callback id a => ∀ p ∈ s.ports, p.id = id → s.CleanCallback p a
  | .setporttimeout _ _ => True
  | .setportenable env portspec enable => ∀ p ∈ s.ports, p.name = portspec →
      ∀ state, portState enable = some state → env.Starts p state
  | .disconnectPort portspec => ∀ p ∈ s.ports, p.name = portspec → s.CleanCallback p .disconnect
  | .shutdownPorts => ∀ p ∈ s.ports, (shutdownPort p.port).ended = false

/-- The steps that leave the state tidy. -/
def Ports.Clean (s : Ports) (ev : PortsEvent) : Prop := ev.ready s = true → s.CleanEvent ev

namespace Ports

variable {s : Ports} {p : PortInfo}

/-! ### Ports that are turned on or off -/

theorem changePortState_kept (h : s.Kept) (hp : p ∈ s.ports) {env : StartupEnv}
    (hfresh : env.fresh s = true) {state : PortState} (hstarts : env.Starts p state) :
    ((changePortState env s p state).1.put (changePortState env s p state).2.1).Kept := by
  rw [changePortState]
  split
  · exact h.put hp rfl rfl rfl rfl
  split
  · next hstate =>
    rw [hstate]
    exact h.close hp
  next hon =>
  split
  · next hoff =>
    obtain ⟨fd, rfl⟩ := hstarts hoff hon
    exact h.listen hp hoff (by simpa [StartupEnv.fresh] using hfresh) hon
  · next hother =>
    rw [Ports.put]
    exact h.middle hp s.crashed rfl (.inl ⟨rfl, rfl⟩) (h.sockets.amend h.injOn_name hp rfl rfl)
      (h.handlers.amend h.injOn_id hp rfl rfl)
      (iff_of_false hon fun hnone => hother ((h.enabled p hp).2 hnone))

/-- A port that is turned on in vain is enabled, and does not listen. -/
theorem changePortState_untidy (h : s.Kept) (hp : p ∈ s.ports) {env : StartupEnv}
    (hfresh : env.fresh s = true) {state : PortState} (hfails : ¬ env.Starts p state) :
    ¬ ((changePortState env s p state).1.put (changePortState env s p state).2.1).Tidy := by
  rw [StartupEnv.Starts, not_forall] at hfails
  obtain ⟨hoff, hfails⟩ := hfails
  rw [not_forall] at hfails
  obtain ⟨hon, hfails⟩ := hfails
  have hnone : p.acceptfd = none := (h.enabled p hp).1 hoff
  rw [changePortState, if_neg (fun hsame => hon (hsame.symm.trans hoff)), if_neg hon, if_pos hoff]
  -- The port as it is then.
  have huntidy : ∀ fd : Option Fd, (∀ fd', fd = some fd' → s.sockets fd' = none) →
      ¬ (s.put { p with acceptfd := fd, port := { p.port with enabled := state } }).Tidy := by
    intro fd hfd htidy
    have hmem : { p with acceptfd := fd, port := { p.port with enabled := state } } ∈
        (s.put { p with acceptfd := fd, port := { p.port with enabled := state } }).ports :=
      List.mem_map.2 ⟨p, hp, if_pos rfl⟩
    obtain ⟨fd', hfd', hsocket⟩ := (htidy.listens _ hmem).1 hon
    rw [Ports.put, hfd fd' hfd'] at hsocket
    cases hsocket
  cases env with
  | invalid =>
    refine huntidy p.acceptfd fun fd' hfd' => ?_
    cases hnone.symm.trans hfd'
  | noSocket => exact huntidy none fun fd' hfd' => by cases hfd'
  | fails fd call =>
    refine huntidy (some fd) fun fd' hfd' => ?_
    obtain rfl := Option.some.inj hfd'
    simpa [StartupEnv.fresh] using hfresh
  | listens fd => exact absurd ⟨fd, rfl⟩ hfails

theorem freePort_disabled (s : Ports) (hoff : p.port.enabled = .disabled) : freePort s p = s := by
  rw [freePort, changePortState, if_pos hoff]

theorem freePort_enabled (s : Ports) (hon : p.port.enabled ≠ .disabled) :
    freePort s p = { s with
      sockets := revoke s.sockets p.acceptfd
      handlers := revoke s.handlers p.acceptfd } := by
  rw [freePort, changePortState, if_neg hon, if_pos rfl]

/-- A port that is freed gives its socket back. -/
theorem freePort_eq (s : Ports) (h : p.port.enabled = .disabled ↔ p.acceptfd = none) :
    freePort s p = { s with
      sockets := revoke s.sockets p.acceptfd
      handlers := revoke s.handlers p.acceptfd } := by
  by_cases hoff : p.port.enabled = .disabled
  · rw [freePort_disabled s hoff, h.1 hoff]
    rfl
  · exact freePort_enabled s hoff

/-! ### Connections that end -/

theorem finishShutdown_kept (h : s.Kept) (hp : p ∈ s.ports)
    (hway : p.configNum ≠ none → ∀ c, p.newConfig = some c →
      c.name = p.name ∧ (c.enabled = .disabled ↔ p.port.enabled = .disabled)) :
    (finishShutdown s p).Kept := by
  rw [finishShutdown]
  split
  · obtain ⟨-, fd, hq⟩ := changePortState_same .invalid s p .disabled
    have hfree := freePort_eq s (h.enabled p hp)
    rw [freePort] at hfree
    dsimp only
    rw [hq, freePort_disabled _ rfl, hfree]
    exact h.remove hp
  · next k hnum =>
    split
    · exact h
    · next c hsome =>
      obtain ⟨hname, henabled⟩ := hway (hnum ▸ Option.some_ne_none k) c hsome
      dsimp only
      rw [freePort_disabled _ rfl]
      exact h.succeed hp rfl hname rfl henabled

theorem leave_kept (h : s.Kept) (hs : s.roll.Sound) (hp : p ∈ s.ports) {r : Result}
    (henabled : r.port.enabled = p.port.enabled) (hway : p.MakesWay r) : (s.leave p r).Kept := by
  have hput : (s.put { p with port := r.port }).Kept := h.put hp rfl rfl rfl henabled
  rw [Ports.leave]
  split
  · next hended =>
    refine finishShutdown_kept hput (List.mem_map.2 ⟨p, hp, if_pos rfl⟩) fun hnum c hsome => ?_
    refine ⟨((hs.each p hp).pending c hsome).1, ?_⟩
    rw [hway hended hnum c hsome, henabled]
  · exact hput

/-- A connection that makes way for what is not as the port is. -/
theorem leave_untidy (h : s.Kept) (hs : s.roll.Sound) (hp : p ∈ s.ports) {r : Result}
    (hway : ¬ p.MakesWay r) : ¬ (s.leave p r).Tidy := by
  simp only [PortInfo.MakesWay, not_forall] at hway
  obtain ⟨hended, hnum, c, hsome, hdiffer⟩ := hway
  obtain ⟨k, hnum⟩ := Option.ne_none_iff_exists'.1 hnum
  have hname : c.name = p.name := ((hs.each p hp).pending c hsome).1
  have hleave : s.leave p r = { s.put { p with port := r.port } with
      ports := exchange PortInfo.id p.id (c.portInfo s.nextId p.acceptfd)
        (s.put { p with port := r.port }).ports
      nextId := s.nextId + 1
      handlers := grant s.handlers p.acceptfd s.nextId } := by
    rw [Ports.leave, if_pos hended, finishShutdown]
    simp only [hnum, hsome]
    exact freePort_disabled _ rfl
  intro htidy
  rw [hleave] at htidy
  have hmem : { p with port := r.port } ∈ (s.put { p with port := r.port }).ports :=
    List.mem_map.2 ⟨p, hp, if_pos rfl⟩
  have hnew := htidy.listens (c.portInfo s.nextId p.acceptfd) (List.mem_map.2 ⟨_, hmem, if_pos rfl⟩)
  refine hdiffer ((not_iff_not.1 (hnew.trans ?_)).trans (h.enabled p hp).symm)
  constructor
  · rintro ⟨fd, hfd, -⟩ hnone
    cases hfd.symm.trans hnone
  · intro hsome'
    obtain ⟨fd, hfd⟩ := Option.ne_none_iff_exists'.1 hsome'
    exact ⟨fd, hfd, (h.sockets.of_mem hp hfd).trans (congrArg some hname.symm)⟩

theorem run_tidy_iff (h : s.Kept) (hs : s.roll.Sound) (hsane : s.crashed = false) (hp : p ∈ s.ports)
    {a : Action} (ha : a.ofConnection = true) :
    (s.CleanCallback p a → (s.run p a).Kept ∧ (s.run p a).crashed = false) ∧
      (¬ s.CleanCallback p a → ¬ (s.run p a).Tidy) := by
  have henabled : (callback p.conf (s.inuse p) p.port a).port.enabled = p.port.enabled := by
    rcases (hs.each p hp).states with hconn | hidle
    · exact (callback_outcome p.conf (s.inuse p) hconn ha).enabled
    · rw [callback_idle p.conf (s.inuse p) hidle ha]
  rw [Ports.run, CleanCallback]
  split
  · next hgone =>
    refine ⟨fun hclean => ?_, fun _ htidy => ?_⟩
    · rw [hclean.1] at hgone
      cases hgone
    · cases htidy.sane
  · next hthere =>
    have hthere' : p.misuses a (callback p.conf (s.inuse p) p.port a) = false := by
      simpa using hthere
    refine ⟨fun hclean => ⟨leave_kept h hs hp henabled hclean.2, ?_⟩, fun hclean => ?_⟩
    · rw [leave_crashed, hsane]
    · exact leave_untidy h hs hp fun hway => hclean ⟨hthere', hway⟩

/-! ### Ports that are configured -/

theorem replacePort_eq (env : StartupEnv) (s : Ports) (curr : PortInfo) (c : NewPort) :
    ∃ s₁ : Ports, ∃ q : PortInfo, s₁ = { s with
        ports := exchange PortInfo.id curr.id q s.ports
        nextId := s.nextId + 1
        handlers := grant s.handlers curr.acceptfd q.id } ∧
      q = { c.portInfo s.nextId curr.acceptfd with port := initPortData curr.port.enabled } ∧
      replacePort env s curr c =
        (changePortState env s₁ q c.enabled).1.put (changePortState env s₁ q c.enabled).2.1 := by
  refine ⟨_, _, rfl, rfl, ?_⟩
  rw [replacePort]
  dsimp only
  rw [freePort_disabled _ rfl]

theorem replacePort_tidy_iff (h : s.Kept) (hp : p ∈ s.ports) {c : NewPort} (hname : c.name = p.name)
    {env : StartupEnv} (hfresh : env.fresh s = true) :
    (env.Starts p c.enabled → (replacePort env s p c).Kept) ∧
      (¬ env.Starts p c.enabled → ¬ (replacePort env s p c).Tidy) := by
  obtain ⟨s₁, q, hs₁, hq, heq⟩ := replacePort_eq env s p c
  have hkept : s₁.Kept := by
    rw [hs₁]
    exact h.succeed hp (by rw [hq]; rfl) (by rw [hq]; exact hname) (by rw [hq]; rfl)
      (by rw [hq]; rfl)
  have hmem : q ∈ s₁.ports := by
    rw [hs₁]
    exact List.mem_map.2 ⟨p, hp, if_pos rfl⟩
  have hfresh' : env.fresh s₁ = true := by
    rw [hs₁]
    exact hfresh
  have hstarts : env.Starts q c.enabled ↔ env.Starts p c.enabled := by
    rw [hq]
    rfl
  rw [heq, ← hstarts]
  exact ⟨changePortState_kept hkept hmem hfresh', changePortState_untidy hkept hmem hfresh'⟩

theorem postponePort_tidy_iff (h : s.Kept) (hp : p ∈ s.ports) (c : NewPort) :
    ((p.newConfig ≠ none → p.port.enabled = .disabled) → (postponePort s p c).Kept) ∧
      (¬ (p.newConfig ≠ none → p.port.enabled = .disabled) → ¬ (postponePort s p c).Tidy) := by
  rw [postponePort]
  dsimp only
  refine ⟨fun honce => h.put hp rfl rfl rfl ?_, fun htwice htidy => ?_⟩
  · dsimp only
    split
    · next hsome => exact (honce (Option.isSome_iff_ne_none.1 hsome)).symm
    · rfl
  · rw [Classical.not_imp] at htwice
    obtain ⟨hsome, hon⟩ := htwice
    rw [if_pos (Option.isSome_iff_ne_none.2 hsome)] at htidy
    -- The port is off for good, and its socket is still there.
    refine (htidy.listens _ (List.mem_map.2 ⟨p, hp, if_pos rfl⟩)).2 ?_ rfl
    have hfd : p.acceptfd ≠ none := fun hnone => hon ((h.enabled p hp).2 hnone)
    obtain ⟨fd, hfd⟩ := Option.ne_none_iff_exists'.1 hfd
    exact ⟨fd, hfd, h.sockets.of_mem hp hfd⟩

theorem addPort_kept (h : s.Kept) {c : NewPort} (hnew : c.name ∉ s.ports.map PortInfo.name)
    {env : StartupEnv} (hfresh : env.fresh s = true) : (addPort env s c).1.Kept := by
  rw [addPort]
  dsimp only
  by_cases hon : c.enabled ≠ .disabled
  · rw [if_pos hon]
    have henabled : (initPortData c.enabled).enabled ≠ .disabled := hon
    cases env with
    | invalid =>
      change (freePort s (c.portInfo s.nextId none)).Kept
      rw [freePort_enabled s henabled]
      exact h
    | noSocket =>
      change (freePort s (c.portInfo s.nextId none)).Kept
      rw [freePort_enabled s henabled]
      exact h
    | fails fd call =>
      have hfd : s.sockets fd = none := by simpa [StartupEnv.fresh] using hfresh
      change (freePort s (c.portInfo s.nextId (some fd))).Kept
      rw [freePort_enabled s henabled]
      -- The descriptor is not that of a socket any more.
      have hsame : ∀ {τ : Type} (table : Fd → Option τ), table fd = none →
          revoke table (some fd) = table := by
        intro τ table hnone
        rw [revoke, ← hnone, Function.update_eq_self]
      change Kept { s with
        sockets := revoke s.sockets (some fd)
        handlers := revoke s.handlers (some fd) }
      rw [hsame s.sockets hfd, hsame s.handlers (h.handlers_free hfd)]
      exact h
    | listens fd =>
      have hfd : s.sockets fd = none := by simpa [StartupEnv.fresh] using hfresh
      exact @Kept.add s (c.portInfo s.nextId (some fd)) h rfl hnew
        (fun fd' hfd' => by obtain rfl := Option.some.inj hfd'; exact hfd)
        (iff_of_false hon (Option.some_ne_none fd))
  · rw [if_neg hon]
    exact @Kept.add s (c.portInfo s.nextId none) h rfl hnew (fun fd hfd => by cases hfd)
      (iff_of_true (not_not.1 hon) rfl)

theorem clearOldPorts_kept {k : Nat} {l rest : List PortInfo} {s : Ports}
    (h : Kept { s with ports := l ++ rest }) :
    Kept { (clearOldPorts k s rest).1 with ports := l ++ (clearOldPorts k s rest).2 } := by
  induction rest generalizing l s with
  | nil => exact h
  | cons p rest ih =>
    have hp : p ∈ l ++ p :: rest := List.mem_append_right _ List.mem_cons_self
    rw [clearOldPorts]
    split
    · split
      · have hremoved := h.remove hp
        rw [discard_append h.ids] at hremoved
        refine ih ?_
        rw [freePort_eq s (h.enabled p hp)]
        exact hremoved
      · have hput := @Kept.put _ _ { p with configNum := none } h hp rfl rfl rfl rfl
        rw [Ports.put, exchange_append h.ids, List.append_cons] at hput
        have hrest := @ih (l ++ [{ p with configNum := none }]) s hput
        rw [← List.append_cons] at hrest
        exact hrest
    · have hrest := @ih (l ++ [p]) s (by rwa [← List.append_cons])
      rw [← List.append_cons] at hrest
      exact hrest

/-! ### The end of the program -/

theorem shutdownPort_enabled (p : Port) : (shutdownPort p).port.enabled = p.enabled := by
  rw [shutdownPort]
  dsimp only
  split
  · rfl
  · rfl

/-- The loop goes on as long as no port is freed. -/
theorem shutdownLoop_eq_none {rest : List PortInfo} {s : Ports} :
    shutdownLoop s rest = none ↔ ∃ p ∈ rest, (shutdownPort p.port).ended = true := by
  induction rest generalizing s with
  | nil => exact iff_of_false nofun (by simp)
  | cons p rest ih =>
    rw [shutdownLoop]
    split
    · next hended => exact iff_of_true rfl ⟨p, List.mem_cons_self, hended⟩
    · next hgoes =>
      rw [ih]
      constructor
      · rintro ⟨q, hq, hended⟩
        exact ⟨q, List.mem_cons_of_mem _ hq, hended⟩
      · rintro ⟨q, hq, hended⟩
        rcases List.mem_cons.1 hq with rfl | hq
        · exact absurd hended hgoes
        · exact ⟨q, hq, hended⟩

theorem shutdownLoop_kept {l rest : List PortInfo} {s s' : Ports} (h : s.Kept)
    (hl : s.ports = l ++ rest) (hloop : shutdownLoop s rest = some s') :
    s'.Kept ∧ s'.crashed = s.crashed := by
  induction rest generalizing l s with
  | nil =>
    obtain rfl := Option.some.inj hloop
    exact ⟨h, rfl⟩
  | cons p rest ih =>
    have hp : p ∈ s.ports := by
      rw [hl]
      exact List.mem_append_right _ List.mem_cons_self
    rw [shutdownLoop] at hloop
    split at hloop
    · cases hloop
    · have hput : (s.put { p with configNum := none, port := (shutdownPort p.port).port }).Kept :=
        h.put hp rfl rfl rfl (shutdownPort_enabled _)
      have hroll : (s.put { p with configNum := none, port := (shutdownPort p.port).port }).roll =
          (l ++ _ :: rest, s.nextId) := put_roll h.ids hl rfl
      rw [List.append_cons] at hroll
      obtain ⟨hkept, hsane⟩ := ih hput (Prod.mk.inj hroll).1 hloop
      exact ⟨hkept, hsane⟩

/-! ### Runs of clean steps -/

/-- The states in which the program is tidy and stays so. -/
structure Good (s : Ports) : Prop extends s.Kept where
  sound : s.roll.Sound
  sane : s.crashed = false

theorem start_good : start.Good where
  sockets := fun _ _ => iff_of_false nofun fun ⟨_, h, _⟩ => absurd h List.not_mem_nil
  handlers := fun _ _ => iff_of_false nofun fun ⟨_, h, _⟩ => absurd h List.not_mem_nil
  ids := List.nodup_nil
  names := List.nodup_nil
  below := fun _ h => absurd h List.not_mem_nil
  enabled := fun _ h => absurd h List.not_mem_nil
  sound := start_sound
  sane := rfl

theorem find_id {id : Nat} (h : s.ports.find? (·.id = id) = some p) : p ∈ s.ports ∧ p.id = id :=
  ⟨List.mem_of_find?_eq_some h, by simpa using List.find?_some h⟩

/-- A function that looks a port up finds the one that has the name. -/
theorem forall_name_iff (h : s.Kept) {name : PortName}
    (hfind : s.ports.find? (·.name = name) = some p) {P : PortInfo → Prop} :
    (∀ q ∈ s.ports, q.name = name → P q) ↔ P p := by
  obtain ⟨hp, hname⟩ := find_name hfind
  constructor
  · exact fun hall => hall p hp hname
  · intro hP q hq hqname
    rwa [eq_of_key h.names hq hp (hqname.trans hname.symm)]

theorem forall_id_iff (h : s.Kept) {id : Nat} (hfind : s.ports.find? (·.id = id) = some p)
    {P : PortInfo → Prop} : (∀ q ∈ s.ports, q.id = id → P q) ↔ P p := by
  obtain ⟨hp, hid⟩ := find_id hfind
  constructor
  · exact fun hall => hall p hp hid
  · intro hP q hq hqid
    rwa [eq_of_key h.ids hq hp (hqid.trans hid.symm)]

/-- No other port has the name. -/
theorem not_mem_of_find {name : PortName} (hfind : s.ports.find? (·.name = name) = none) :
    ∀ p ∈ s.ports, p.name ≠ name := by
  intro p hp
  simpa using List.find?_eq_none.1 hfind p hp

/-- **What a step does to a good state**: a clean one keeps it good, and any other one ends its
being tidy. -/
theorem perform_good_iff (h : s.Good) {ev : PortsEvent} (hready : ev.ready s = true) :
    (s.CleanEvent ev → (s.perform ev).Kept ∧ (s.perform ev).crashed = false) ∧
      (¬ s.CleanEvent ev → ¬ (s.perform ev).Tidy) := by
  have hkept := h.toKept
  cases ev with
  | portconfig env line k =>
    rw [perform, Dataxfer.portconfig, CleanEvent]
    split
    · next error herror =>
      refine ⟨fun _ => ⟨hkept, h.sane⟩, fun hclean => absurd (fun c hc => ?_) hclean⟩
      cases herror.symm.trans hc
    next c hc =>
    simp only [hc, Except.ok.injEq, forall_eq']
    split
    · next p hfind =>
      obtain ⟨hp, hname⟩ := find_name hfind
      rw [forall_name_iff hkept hfind]
      split
      · obtain ⟨hclean, hother⟩ := replacePort_tidy_iff hkept hp hname.symm hready
        refine ⟨fun hstarts => ⟨hclean hstarts, ?_⟩, hother⟩
        rw [replacePort]
        exact (changePortState_crashed ..).trans ((freePort_crashed _ _).trans h.sane)
      · obtain ⟨hclean, hother⟩ := postponePort_tidy_iff hkept hp c
        exact ⟨fun honce => ⟨hclean honce, h.sane⟩, hother⟩
    · next hnone =>
      have hnew := not_mem_of_find hnone
      refine ⟨fun _ => ⟨addPort_kept hkept ?_ hready, ?_⟩, fun hclean => ?_⟩
      · intro hmem
        obtain ⟨q, hq, hname⟩ := List.mem_map.1 hmem
        exact hnew q hq hname
      · rw [addPort_crashed, h.sane]
      · exact absurd (fun q hq hname => absurd hname (hnew q hq)) hclean
  | clearOldPortConfig k =>
    refine ⟨fun _ => ⟨?_, ?_⟩, fun hclean => absurd trivial hclean⟩
    · exact @clearOldPorts_kept k [] s.ports s hkept
    · exact clearOldPorts_crashed.trans h.sane
  | connect fd env =>
    refine ⟨fun _ => ?_, fun hclean => absurd trivial hclean⟩
    rw [perform, connect]
    split
    · exact ⟨hkept, h.sane⟩
    next id hid =>
    obtain ⟨p, hp, -, hpid⟩ := (hkept.handlers fd id).1 hid
    split
    · next hnone => exact absurd hpid (by simpa using List.find?_eq_none.1 hnone p hp)
    · next q hfind =>
      obtain ⟨henabled, hgoes, -⟩ := handleAcceptPortRead_outcome q.conf (s.inuse q) env q.port
      refine ⟨leave_kept hkept h.sound (find_id hfind).1 henabled fun hended => ?_, ?_⟩
      · rw [hgoes] at hended
        cases hended
      · rw [leave_crashed, h.sane]
  | callback id a =>
    rw [perform, CleanEvent]
    split
    · next hnone =>
      refine ⟨fun _ => ⟨hkept, h.sane⟩, fun hclean => absurd (fun p hp hid => ?_) hclean⟩
      exact absurd hid (by simpa using List.find?_eq_none.1 hnone p hp)
    · next p hfind =>
      have ha : a.ofConnection = true := by
        unfold Action.ofConnection
        rw [show a.ofSelector = true from hready, Bool.true_or]
      rw [forall_id_iff hkept hfind]
      exact run_tidy_iff hkept h.sound h.sane (find_id hfind).1 ha
  | setporttimeout portspec timeout =>
    refine ⟨fun _ => ?_, fun hclean => absurd trivial hclean⟩
    rw [perform, Dataxfer.setporttimeout]
    split
    · exact ⟨hkept, h.sane⟩
    · next p hfind => exact ⟨hkept.put (find_name hfind).1 rfl rfl rfl rfl, h.sane⟩
  | setportenable env portspec enable =>
    rw [perform, Dataxfer.setportenable, CleanEvent]
    split
    · next hnone =>
      refine ⟨fun _ => ⟨hkept, h.sane⟩, fun hclean => absurd (fun p hp hname => ?_) hclean⟩
      exact absurd hname (not_mem_of_find hnone p hp)
    next p hfind =>
    rw [forall_name_iff hkept hfind]
    split
    · next hstate =>
      refine ⟨fun _ => ⟨hkept, h.sane⟩, fun hclean => absurd (fun state hsome => ?_) hclean⟩
      rw [hstate] at hsome
      cases hsome
    · next state hstate =>
      simp only [hstate, Option.some.injEq, forall_eq']
      refine ⟨fun hstarts => ⟨changePortState_kept hkept (find_name hfind).1 hready hstarts, ?_⟩,
        changePortState_untidy hkept (find_name hfind).1 hready⟩
      exact (changePortState_crashed env s p state).trans h.sane
  | disconnectPort portspec =>
    rw [perform, Dataxfer.disconnectPort, CleanEvent]
    split
    · next hnone =>
      refine ⟨fun _ => ⟨hkept, h.sane⟩, fun hclean => absurd (fun p hp hname => ?_) hclean⟩
      exact absurd hname (not_mem_of_find hnone p hp)
    next p hfind =>
    rw [forall_name_iff hkept hfind]
    split
    · next hidle =>
      refine ⟨fun _ => ⟨hkept, h.sane⟩, fun hclean => absurd ?_ hclean⟩
      have hnothing : callback p.conf (s.inuse p) p.port .disconnect = ⟨p.port, [], 0⟩ := by
        unfold callback
        rw [if_pos (by simpa [Action.ready] using hidle)]
      refine ⟨?_, fun hended => ?_⟩
      · rw [hnothing]
        exact Bool.and_false _
      · rw [hnothing] at hended
        cases hended
    · exact run_tidy_iff hkept h.sound h.sane (find_name hfind).1 rfl
  | shutdownPorts =>
    rw [perform, Dataxfer.shutdownPorts, CleanEvent]
    cases hloop : shutdownLoop s s.ports with
    | none =>
      obtain ⟨p, hp, hended⟩ := shutdownLoop_eq_none.1 hloop
      refine ⟨fun hclean => ?_, fun _ htidy => ?_⟩
      · rw [hclean p hp] at hended
        cases hended
      · cases htidy.sane
    | some s' =>
      obtain ⟨hkept', hsane⟩ := shutdownLoop_kept (l := []) hkept rfl hloop
      refine ⟨fun _ => ⟨hkept', hsane.trans h.sane⟩, fun hclean => absurd (fun p hp => ?_) hclean⟩
      by_contra hended
      have hnone := (@shutdownLoop_eq_none s.ports s).2 ⟨p, hp, by simpa using hended⟩
      rw [hnone] at hloop
      cases hloop

theorem step_good (h : s.Good) {ev : PortsEvent} (hclean : s.Clean ev) : (s.step ev).Good := by
  have hsound := (step_changes h.sound ev).sound h.sound
  rw [step] at hsound ⊢
  split at hsound
  · next hready =>
    rw [if_pos hready]
    obtain ⟨-, hready⟩ := Bool.and_eq_true_iff.1 hready
    obtain ⟨hkept, hsane⟩ := (perform_good_iff h hready).1 (hclean hready)
    exact ⟨hkept, hsound, hsane⟩
  · next hready =>
    rw [if_neg hready]
    exact h

/-- **Then every socket that listens has one port**, with the name it is bound to, and a client that
arrives there is given to that port and to no other. -/
theorem ports_wired {evs : List PortsEvent} (h : Run.EachStep step Clean start evs) :
    Run.Always step Wired start evs :=
  Run.Always.of_invariant (I := Good) start_good (fun _ _ h hclean => step_good h hclean)
    (fun _ h => h.toKept.toWired) h

/-- A port is configured again before a client arrives and once more while it is there: the
socket goes to the second port and, when the client has gone, to the third. -/
theorem ports_wired_client :
    let line : ConfigLine := ⟨⟨['2', '0', '0', '1'], ['a'], true, none, none, none,
      ⟨false, [], 256⟩, 31⟩, true, "raw".toList, some 0, true⟩
    let env : SetupEnv := ⟨true, true, true, true, true, true, true, true, 0⟩
    let evs : List PortsEvent := [.portconfig (.listens 3) line 1, .portconfig .invalid line 2,
      .connect 3 env, .portconfig .invalid line 3, .callback 1 .except, .connect 3 env]
    Run.Always step Wired start evs ∧
      ((evs.foldl step start).ports.map fun p => (p.id, p.acceptfd)) = [(2, some 3)] := by
  intro line env evs
  refine ⟨ports_wired ⟨fun _ _ _ p hp => absurd hp List.not_mem_nil, ?_, fun _ => trivial, ?_, ?_,
    fun _ => trivial, trivial⟩, by decide +kernel⟩
  · -- The first port is on, so nothing has to be started.
    have hon : ∀ p ∈ (start.step (.portconfig (.listens 3) line 1)).ports,
        p.unconnected = true ∧ p.port.enabled = .raw := by decide +kernel
    intro _ c _ p hp _
    rw [if_pos (hon p hp).1]
    intro hoff
    cases (hon p hp).2.symm.trans hoff
  · have honce : ∀ p ∈ ([PortsEvent.portconfig (.listens 3) line 1, .portconfig .invalid line 2,
        .connect 3 env].foldl step start).ports,
        p.unconnected = false ∧ p.newConfig.isSome = false := by decide +kernel
    intro _ c _ p hp _
    rw [if_neg (by rw [(honce p hp).1]; decide)]
    intro hsome
    cases (honce p hp).2.symm.trans (Option.isSome_iff_ne_none.2 hsome)
  · -- The third port is on, as the second is.
    have hends : ∀ p ∈ ([PortsEvent.portconfig (.listens 3) line 1, .portconfig .invalid line 2,
        .connect 3 env, .portconfig .invalid line 3].foldl step start).ports,
        p.port.enabled = .raw ∧ p.newConfig.map NewPort.enabled = some .raw := by decide +kernel
    intro _ p hp _
    refine ⟨Bool.and_false _, fun _ _ c hc => ?_⟩
    obtain ⟨hon, hnew⟩ := hends p hp
    rw [hc, Option.map_some, Option.some.injEq] at hnew
    rw [hon, hnew]

/-- A port that is turned off while it has a client is off when the client has gone, but it still
listens. When it is taken away after that, its socket stays behind, and the next client is given to a
port that has been freed. -/
example :
    let line (state : List Char) : ConfigLine := ⟨⟨['2', '0', '0', '1'], ['a'], true, none, none,
      none, ⟨false, [], 256⟩, 31⟩, true, state, some 0, true⟩
    let env : SetupEnv := ⟨true, true, true, true, true, true, true, true, 0⟩
    let s := [.portconfig (.listens 3) (line "raw".toList) 1, .connect 3 env,
      .portconfig .invalid (line "off".toList) 2, .callback 0 .except].foldl step start
    s.ports.map (fun p => (p.port.enabled, p.acceptfd)) = [(.disabled, some 3)] ∧
      ([.clearOldPortConfig 3, .connect 3 env].foldl step s).crashed = true := by
  decide +kernel

/-- A port that has been taken out of the configuration goes with its client. When that is because
pending telnet commands cannot be written, it is looked at once more. -/
example :
    let line : ConfigLine := ⟨⟨['2', '0', '0', '1'], ['a'], true, none, none, none,
      ⟨false, [], 256⟩, 31⟩, true, "telnet".toList, some 0, true⟩
    let s := [.portconfig (.listens 3) line 1,
      .connect 3 ⟨true, true, true, true, true, true, true, true, 0⟩,
      .clearOldPortConfig 2].foldl step start
    (s.step (.callback 0 (.tcpWrite .cmdFailed))).crashed = true ∧
      (s.step (.callback 0 (.tcpWrite .failed))).crashed = false := by
  decide +kernel

end Ports

end SerialServer.Dataxfer
