import SerialServer.Reporter.LockFile

/-!
# SerialServer.Reporter.LockRuns

Who has the lock of a device.

A user makes its file with `O_EXCL`, so as long as the files of those that have the lock stand,
there is one of them at most (`Exclusive`). Two things can take such a file away: the removal of
a dead process's lock, where the file that is removed need not be the one that was read, and
`shutdown_ports`, which removes the file for every port that has no connection. The files
stand in just the runs where neither takes the file of a user (`locks_stand_iff`).

As long as no process dies or shuts down a port without a connection, and every text is written
at once, there is nothing to remove, and no order of the calls gives the lock to two users
(`lock_exclusive_of_calm`). A process that dies before it has written anything leaves a file
that `uucp_mk_lock` never removes: it stays until `shutdown_ports` takes it away (`lock_stuck`).
-/

namespace SerialServer.Dataxfer

/-- No process dies or shuts down a port without a connection, and a text is written at once. -/
def LockEvent.calm : LockEvent → Bool
  | .call _ (.write count) => 11 ≤ count
  | .call _ (.rmUnconnected _) => false
  | .die _ => false
  | _ => true

namespace LockDir

variable {m : Machine} {s s' : LockDir} {u v : User}

/-! ### What a call can do -/

/-- The call removes the file with the name, and `u` has none: the file is taken for that of a dead
process, or it is not asked whose it is. -/
def Removes (s : LockDir) (u : User) (c : LockCall) : Prop :=
  c = .unlink true ∧ s.stage u = .dead ∨ c = .rmUnconnected true ∧ ∃ rv, s.stage u = .outside rv

/-- What a call of `u` does. -/
inductive Moved (m : Machine) (s : LockDir) (u : User) (c : LockCall) : LockDir → Prop
  | stay : Moved m s u c s
  | passed (stage : LockStage) : (s.stage u).file = none →
      (stage = .free ∨ ∃ rv, stage = .outside rv) → Moved m s u c (s.goto u stage)
  | opened (fd : Inode) : (s.stage u).file = none → s.entry = some fd →
      Moved m s u c (s.goto u (.opened fd))
  | checking (fd : Inode) (pid : Pid) : s.stage u = .opened fd →
      toPid (readPid m (s.content fd)) = some pid → Moved m s u c (s.goto u (.checking pid))
  | dead (pid : Pid) : s.stage u = .checking pid → s.alive pid = false →
      Moved m s u c (s.goto u .dead)
  | unlinked (stage : LockStage) : s.Removes u c → (stage = .free ∨ stage = .outside none) →
      Moved m s u c { s.goto u stage with entry := none }
  | made : s.stage u = .free → s.entry = none →
      Moved m s u c { s.goto u (.writing s.next (lockBytes u.pid)) with
        entry := some s.next
        content := Function.update s.content s.next []
        next := s.next + 1 }
  | wrote (fd : Inode) (rest : List Byte) (count : Nat) : c = .write count →
      s.stage u = .writing fd rest → Moved m s u c
        { s.goto u (if rest.length ≤ count then .locked fd else .writing fd (rest.drop count)) with
          content := Function.update s.content fd (s.content fd ++ rest.take count) }
  | failed (fd : Inode) (rest : List Byte) : s.stage u = .writing fd rest →
      Moved m s u c (s.goto u (.locked fd))
  | removed (fd : Inode) (entry : Option Inode) : s.stage u = .locked fd →
      (entry = none ∨ entry = s.entry) →
      Moved m s u c { s.goto u (.outside none) with entry := entry }

theorem call_moved (m : Machine) (s : LockDir) (u : User) (c : LockCall) :
    Moved m s u c (s.call m u c) := by
  unfold call
  split
  · next rv hstage => exact .passed _ (hstage ▸ rfl) (.inr ⟨_, rfl⟩)
  · next ok rv hstage =>
    have hfile : (s.stage u).file = none := hstage ▸ rfl
    split
    · next fd hentry =>
      cases ok with
      | true => exact .opened fd hfile hentry
      | false => exact .passed _ hfile (.inl rfl)
    · exact .passed _ hfile (.inl rfl)
  · next ok fd hstage =>
    split
    · next pid hpid =>
      cases ok with
      | true => exact .checking fd pid hstage hpid
      | false => cases hpid
    · exact .passed _ (hstage ▸ rfl) (.inr ⟨_, rfl⟩)
  · next pid hstage =>
    cases halive : s.alive pid with
    | true => exact .passed _ (hstage ▸ rfl) (.inr ⟨_, rfl⟩)
    | false => exact .dead pid hstage halive
  · next ok hstage =>
    cases ok with
    | true => exact .unlinked .free (.inl ⟨rfl, hstage⟩) (.inl rfl)
    | false => exact .passed _ (hstage ▸ rfl) (.inl rfl)
  · next ok hstage =>
    cases hmade : ok && s.entry.isNone with
    | true => exact .made hstage (Option.isNone_iff_eq_none.1 (Bool.and_eq_true_iff.1 hmade).2)
    | false => exact .passed _ (hstage ▸ rfl) (.inr ⟨_, rfl⟩)
  · next count fd rest hstage => exact .wrote fd rest count rfl hstage
  · next fd rest hstage => exact .failed fd rest hstage
  · next ok fd hstage =>
    refine .removed fd _ hstage ?_
    cases ok with
    | true => exact .inl rfl
    | false => exact .inr rfl
  · next ok rv hstage =>
    cases ok with
    | true => exact .unlinked (.outside none) (.inr ⟨rfl, rv, hstage⟩) (.inr rfl)
    | false => exact .passed _ (hstage ▸ rfl) (.inr ⟨none, rfl⟩)
  · exact .stay

/-! ### The files of the users -/

/-- No two users have one file. -/
structure Sound (s : LockDir) : Prop where
  entry : ∀ fd, s.entry = some fd → fd < s.next
  below : ∀ u fd, (s.stage u).file = some fd → fd < s.next
  apart : ∀ u v fd, (s.stage u).file = some fd → (s.stage v).file = some fd → u = v

/-- The file of a user that has the lock, or is about to, has the name. -/
def Standing (s : LockDir) : Prop := ∀ u fd, (s.stage u).file = some fd → s.entry = some fd

/-- One user has the lock at most. -/
def Exclusive (s : LockDir) : Prop :=
  ∀ u v, (s.stage u).file ≠ none → (s.stage v).file ≠ none → u = v

theorem goto_stage (s : LockDir) (u : User) (stage : LockStage) (v : User) :
    (s.goto u stage).stage v = if v = u then stage else s.stage v :=
  Function.update_apply ..

/-- A user goes on without a new file. -/
theorem goto_file {stage : LockStage} {fd : Inode}
    (hstage : stage.file = none ∨ stage.file = (s.stage u).file)
    (h : ((s.goto u stage).stage v).file = some fd) : (s.stage v).file = some fd := by
  rw [goto_stage] at h
  split at h
  · next hvu =>
    rcases hstage with hnone | hsame
    · cases hnone.symm.trans h
    · exact hvu ▸ hsame.symm.trans h
  · exact h

theorem Sound.goto (h : s.Sound) {stage : LockStage} {entry : Option Inode}
    (content : Inode → List Byte) (hstage : stage.file = none ∨ stage.file = (s.stage u).file)
    (hentry : entry = none ∨ entry = s.entry) :
    Sound { s.goto u stage with entry := entry, content := content } where
  entry := by
    intro fd hfd
    rcases hentry with rfl | rfl
    · cases hfd
    · exact h.entry fd hfd
  below := fun v fd hv => h.below v fd (goto_file hstage hv)
  apart := fun v w fd hv hw => h.apart v w fd (goto_file hstage hv) (goto_file hstage hw)

theorem Sound.made (h : s.Sound) (content : Inode → List Byte) (rest : List Byte) :
    Sound { s.goto u (.writing s.next rest) with
      entry := some s.next
      content := content
      next := s.next + 1 } := by
  have hfile : ∀ v fd, ((s.goto u (.writing s.next rest)).stage v).file = some fd →
      v = u ∧ fd = s.next ∨ v ≠ u ∧ (s.stage v).file = some fd := by
    intro v fd hv
    rw [goto_stage] at hv
    split at hv
    · next hvu => exact .inl ⟨hvu, (Option.some.inj hv).symm⟩
    · next hvu => exact .inr ⟨hvu, hv⟩
  refine ⟨fun fd hfd => ?_, fun v fd hv => ?_, fun v w fd hv hw => ?_⟩
  · obtain rfl := Option.some.inj hfd
    exact Nat.lt_succ_self _
  · rcases hfile v fd hv with ⟨-, rfl⟩ | ⟨-, hold⟩
    · exact Nat.lt_succ_self _
    · exact Nat.lt_succ_of_lt (h.below v fd hold)
  · rcases hfile v fd hv with ⟨rfl, rfl⟩ | ⟨-, hold⟩
    · rcases hfile w _ hw with ⟨rfl, -⟩ | ⟨-, hold⟩
      · rfl
      · exact absurd (h.below w _ hold) (Nat.lt_irrefl _)
    · rcases hfile w fd hw with ⟨rfl, rfl⟩ | ⟨-, hold'⟩
      · exact absurd (h.below v _ hold) (Nat.lt_irrefl _)
      · exact h.apart v w fd hold hold'

theorem Moved.sound {c : LockCall} (hmove : Moved m s u c s') (h : s.Sound) : s'.Sound := by
  cases hmove with
  | stay => exact h
  | passed stage hfile hstage =>
    obtain rfl | ⟨rv, rfl⟩ := hstage
    · exact h.goto s.content (.inl rfl) (.inr rfl)
    · exact h.goto s.content (.inl rfl) (.inr rfl)
  | opened fd hfile hentry => exact h.goto s.content (.inl rfl) (.inr rfl)
  | checking fd pid hstage hpid => exact h.goto s.content (.inl rfl) (.inr rfl)
  | dead pid hstage halive => exact h.goto s.content (.inl rfl) (.inr rfl)
  | unlinked stage hc hstage =>
    obtain rfl | rfl := hstage
    · exact h.goto s.content (.inl rfl) (.inl rfl)
    · exact h.goto s.content (.inl rfl) (.inl rfl)
  | made hstage hentry => exact h.made _ _
  | wrote fd rest count hc hstage =>
    refine h.goto _ (.inr ?_) (.inr rfl)
    rw [hstage]
    split
    · rfl
    · rfl
  | failed fd rest hstage => exact h.goto s.content (.inr (hstage ▸ rfl)) (.inr rfl)
  | removed fd entry hstage hentry => exact h.goto s.content (.inl rfl) hentry

/-- A process that dies has no files. -/
theorem die_file {pid : Pid} {fd : Inode} (h : ((s.step m (.die pid)).stage v).file = some fd) :
    (s.stage v).file = some fd := by
  change (if v.pid = pid then LockStage.outside none else s.stage v).file = some fd at h
  split at h
  · cases h
  · exact h

theorem step_sound (h : s.Sound) (ev : LockEvent) : (s.step m ev).Sound := by
  cases ev with
  | call u c =>
    rw [step]
    split
    · exact (call_moved m s u c).sound h
    · exact h
  | born pid => exact ⟨h.entry, h.below, h.apart⟩
  | die pid =>
    exact ⟨h.entry, fun u fd hu => h.below u fd (die_file hu),
      fun u v fd hu hv => h.apart u v fd (die_file hu) (die_file hv)⟩

theorem start_sound (alive : Pid → Bool) (old : Option (List Byte)) : (start alive old).Sound where
  entry := by
    intro fd hfd
    obtain ⟨-, -, rfl⟩ := Option.map_eq_some_iff.1 hfd
    exact Nat.lt_succ_self 0
  below := fun u fd hu => by cases hu
  apart := fun u v fd hu => by cases hu

theorem Standing.exclusive (h : s.Standing) (hs : s.Sound) : s.Exclusive := by
  intro u v hu hv
  obtain ⟨fd, hfd⟩ := Option.ne_none_iff_exists'.1 hu
  obtain ⟨fd', hfd'⟩ := Option.ne_none_iff_exists'.1 hv
  obtain rfl := Option.some.inj ((h u fd hfd).symm.trans (h v fd' hfd'))
  exact hs.apart u v fd hfd hfd'

/-! ### What takes a file away -/

/-- A file that is removed by a user that has none is that of no other user. -/
def Clean (s : LockDir) : LockEvent → Prop
  | .call u c => s.alive u.pid = true → s.Removes u c →
      ∀ v fd, (s.stage v).file = some fd → s.entry ≠ some fd
  | _ => True

/-- A user that removes another's file has none itself. -/
theorem Removes.file {c : LockCall} (h : s.Removes u c) : (s.stage u).file = none := by
  obtain ⟨-, hstage⟩ | ⟨-, rv, hstage⟩ := h
  · rw [hstage]
    rfl
  · rw [hstage]
    rfl

theorem Standing.goto (h : s.Standing) {stage : LockStage} (content : Inode → List Byte)
    (hstage : stage.file = none ∨ stage.file = (s.stage u).file) :
    Standing { s.goto u stage with content := content } :=
  fun v fd hv => h v fd (goto_file hstage hv)

/-- When no other user has a file, the name may be taken away. -/
theorem Standing.cleared (hother : ∀ v fd, (s.stage v).file = some fd → v = u) {stage : LockStage}
    (hstage : stage.file = none) (entry : Option Inode) :
    Standing { s.goto u stage with entry := entry } := by
  intro v fd hv
  have hvu := hother v fd (goto_file (.inl hstage) hv)
  change (Function.update s.stage u stage v).file = some fd at hv
  rw [hvu, Function.update_self, hstage] at hv
  cases hv

theorem Moved.standing {c : LockCall} (hmove : Moved m s u c s') (hs : s.Sound) (h : s.Standing)
    (hc : ¬ s.Removes u c) : s'.Standing := by
  cases hmove with
  | stay => exact h
  | passed stage hfile hstage =>
    obtain rfl | ⟨rv, rfl⟩ := hstage
    · exact h.goto s.content (.inl rfl)
    · exact h.goto s.content (.inl rfl)
  | opened fd hfile hentry => exact h.goto s.content (.inl rfl)
  | checking fd pid hstage hpid => exact h.goto s.content (.inl rfl)
  | dead pid hstage halive => exact h.goto s.content (.inl rfl)
  | unlinked stage hremoves hstage => exact absurd hremoves hc
  | made hstage hentry =>
    -- Nobody has a file when the name is free.
    intro v fd hv
    change (Function.update s.stage u (.writing s.next (lockBytes u.pid)) v).file = some fd at hv
    rw [Function.update_apply] at hv
    split at hv
    · exact hv
    · cases (h v fd hv).symm.trans hentry
  | wrote fd rest count hwrite hstage =>
    refine h.goto _ (.inr ?_)
    rw [hstage]
    split
    · rfl
    · rfl
  | failed fd rest hstage => exact h.goto s.content (.inr (hstage ▸ rfl))
  | removed fd entry hstage hentry =>
    have hu : (s.stage u).file = some fd := hstage ▸ rfl
    exact Standing.cleared (fun v fd' hv => h.exclusive hs v u (by simp [hv]) (by simp [hu])) rfl
      entry

/-- The name is free after it, and the user still has no file. -/
theorem Removes.call_eq {c : LockCall} (h : s.Removes u c) : ∃ stage : LockStage,
    stage.file = none ∧ s.call m u c = { s.goto u stage with entry := none } := by
  obtain ⟨rfl, hstage⟩ | ⟨rfl, rv, hstage⟩ := h
  · refine ⟨.free, rfl, ?_⟩
    unfold call
    rw [hstage]
    rfl
  · refine ⟨.outside none, rfl, ?_⟩
    unfold call
    rw [hstage]
    rfl

theorem call_standing_iff (hs : s.Sound) (h : s.Standing) {u : User} {c : LockCall}
    (halive : s.alive u.pid = true) : (s.call m u c).Standing ↔ s.Clean (.call u c) := by
  by_cases hc : s.Removes u c
  · obtain ⟨stage, hstage, hcall⟩ := @hc.call_eq m
    rw [hcall]
    constructor
    · intro hstanding _ _ v fd hv _
      have hvu : v ≠ u := by
        rintro rfl
        cases hc.file.symm.trans hv
      have hv' : ((s.goto u stage).stage v).file = some fd := by rwa [goto_stage, if_neg hvu]
      cases hstanding v fd hv'
    · intro hclean
      exact Standing.cleared (fun v fd hv => absurd (h v fd hv) (hclean halive hc v fd hv)) hstage
        none
  · exact iff_of_true ((call_moved m s u c).standing hs h hc) fun _ hremoves => absurd hremoves hc

theorem step_standing_iff (hs : s.Sound) (h : s.Standing) (ev : LockEvent) :
    (s.step m ev).Standing ↔ s.Clean ev := by
  cases ev with
  | call u c =>
    rw [step]
    split
    · next halive => exact call_standing_iff hs h halive
    · next halive => exact iff_of_true h fun ha => absurd ha halive
  | born pid => exact iff_of_true h trivial
  | die pid => exact iff_of_true (fun v fd hv => h v fd (die_file hv)) trivial

/-- **When the lock files stand**: every user that has the lock, or is about to, has its file under
the name in every state of a run, if and only if every file that is removed because its process
is dead, or for a port that has no connection, is one that no user has. -/
theorem locks_stand_iff (m : Machine) (alive : Pid → Bool) (old : Option (List Byte))
    (evs : List LockEvent) : Run.Always (step m) Standing (start alive old) evs ↔
      Run.EachStep (step m) Clean (start alive old) evs := by
  have hstart : (start alive old).Standing := fun u fd hu => by cases hu
  rw [Run.always_iff_eachStep (I := Sound) (start_sound alive old) (fun _ ev hs => step_sound hs ev)
    fun _ ev hs h => step_standing_iff hs h ev]
  exact and_iff_right hstart

/-- Then one user has the lock at most. -/
theorem exclusive_of_clean {alive : Pid → Bool} {old : Option (List Byte)} {evs : List LockEvent}
    (h : Run.EachStep (step m) Clean (start alive old) evs) :
    Run.Always (step m) Exclusive (start alive old) evs := by
  refine Run.Always.of_invariant (I := fun s => s.Sound ∧ s.Standing)
    ⟨start_sound alive old, fun u fd hu => by cases hu⟩ ?_ (fun s hs => hs.2.exclusive hs.1) h
  rintro s ev ⟨hs, hstanding⟩ hclean
  exact ⟨step_sound hs ev, (step_standing_iff hs hstanding ev).2 hclean⟩

/-- Two users find the file of a process that is dead. The second removes the file of the first, and
both have the lock. -/
example :
    let u : User := ⟨⟨100, by decide⟩, 0⟩
    let v : User := ⟨⟨200, by decide⟩, 0⟩
    let evs : List LockEvent := [.call u (.open true), .call v (.open true), .call u (.read true),
      .call v (.read true), .call u .kill, .call v .kill, .call u (.unlink true),
      .call u (.create true), .call u (.write 11), .call v (.unlink true), .call v (.create true),
      .call v (.write 11)]
    let s := evs.foldl (step ⟨.big, .unsigned⟩)
      (start (fun pid => pid.1 ≠ 300) (some (lockBytes ⟨300, by decide⟩)))
    s.stage u = .locked 1 ∧ s.stage v = .locked 2 := by
  decide +kernel

/-! ### Runs in which no process dies -/

/-- What a user of a process that lives can be about to do, when all the others live. -/
def Fits (s : LockDir) (pid : Pid) : LockStage → Prop
  | .writing fd rest => s.content fd = [] ∧ rest = lockBytes pid
  | .checking pid => s.alive pid = true
  | .dead => False
  | _ => True

/-- What there is when every process has lived. -/
structure Fresh (s : LockDir) : Prop where
  content : ∀ fd, s.content fd = [] ∨ ∃ pid, s.alive pid = true ∧ s.content fd = lockBytes pid
  stages : ∀ u, s.Fits u.pid (s.stage u)

theorem Fresh.goto (h : s.Fresh) {stage : LockStage} (entry : Option Inode)
    (hstage : s.Fits u.pid stage) : Fresh { s.goto u stage with entry := entry } := by
  refine ⟨h.content, fun v => ?_⟩
  change Fits s v.pid (Function.update s.stage u stage v)
  rw [Function.update_apply]
  split
  · next hvu => exact hvu ▸ hstage
  · exact h.stages v

/-- A file is written, when no other user has it. -/
theorem Fits.write {fd : Inode} {content : List Byte} {pid : Pid} {stage : LockStage}
    (h : s.Fits pid stage) (hother : stage.file ≠ some fd) {s' : LockDir}
    (hcontent : s'.content = Function.update s.content fd content) (halive : s'.alive = s.alive) :
    s'.Fits pid stage := by
  cases stage with
  | writing fd' rest =>
    obtain ⟨hempty, hrest⟩ := h
    have hne : fd' ≠ fd := fun heq => hother (congrArg some heq)
    refine ⟨?_, hrest⟩
    rw [hcontent, Function.update_of_ne hne, hempty]
  | checking pid => exact (congrFun halive pid).trans h
  | dead => exact h
  | outside | opened | free | locked => trivial

theorem Moved.fresh {c : LockCall} (hmove : Moved m s u c s') (hs : s.Sound) (h : s.Fresh)
    (halive : s.alive u.pid = true) (hcalm : (LockEvent.call u c).calm = true) : s'.Fresh := by
  have hu := h.stages u
  cases hmove with
  | stay => exact h
  | passed stage hfile hstage =>
    obtain rfl | ⟨rv, rfl⟩ := hstage
    · exact h.goto s.entry trivial
    · exact h.goto s.entry trivial
  | opened fd hfile hentry => exact h.goto s.entry trivial
  | checking fd pid hstage hpid =>
    refine h.goto s.entry ?_
    rcases h.content fd with hempty | ⟨pid', halive', htext⟩
    · rw [hempty, readPid_nil] at hpid
      cases hpid
    · rw [htext, readPid_lockBytes] at hpid
      obtain rfl := Option.some.inj hpid
      exact halive'
  | dead pid hstage hdead =>
    rw [hstage] at hu
    cases hdead.symm.trans hu
  | unlinked stage hremoves hstage =>
    obtain ⟨-, hdead⟩ | ⟨rfl, -⟩ := hremoves
    · rw [hdead] at hu
      exact hu.elim
    · cases hcalm
  | made hstage hentry =>
    refine ⟨fun fd => ?_, fun v => ?_⟩
    · change Function.update s.content s.next [] fd = [] ∨
        ∃ pid, s.alive pid = true ∧ Function.update s.content s.next [] fd = lockBytes pid
      rw [Function.update_apply]
      split
      · exact .inl rfl
      · exact h.content fd
    · change Fits _ v.pid (Function.update s.stage u (.writing s.next (lockBytes u.pid)) v)
      rw [Function.update_apply]
      split
      · next hvu =>
        subst hvu
        exact ⟨Function.update_self .., rfl⟩
      · refine (h.stages v).write (fun hfile => ?_) rfl rfl
        exact absurd (hs.below v _ hfile) (Nat.lt_irrefl _)
  | wrote fd rest count hwrite hstage =>
    rw [hstage] at hu
    obtain ⟨hempty, rfl⟩ := hu
    obtain rfl := hwrite
    have hlen : (lockBytes u.pid).length = 11 := by rw [lockBytes, List.length_map, length_lockText]
    have hcount : (lockBytes u.pid).length ≤ count := by
      rw [hlen]
      exact of_decide_eq_true hcalm
    rw [if_pos hcount, hempty, List.nil_append, List.take_of_length_le hcount]
    refine ⟨fun fd' => ?_, fun v => ?_⟩
    · change Function.update s.content fd (lockBytes u.pid) fd' = [] ∨ ∃ pid,
        s.alive pid = true ∧ Function.update s.content fd (lockBytes u.pid) fd' = lockBytes pid
      rw [Function.update_apply]
      split
      · exact .inr ⟨u.pid, halive, rfl⟩
      · exact h.content fd'
    · change Fits _ v.pid (Function.update s.stage u (.locked fd) v)
      rw [Function.update_apply]
      split
      · trivial
      · next hvu =>
        refine (h.stages v).write (fun hfile => ?_) rfl rfl
        exact hvu (hs.apart v u fd hfile (hstage ▸ rfl))
  | failed fd rest hstage => exact h.goto s.entry trivial
  | removed fd entry hstage hentry => exact h.goto entry trivial

theorem step_fresh (hs : s.Sound) (h : s.Fresh) {ev : LockEvent} (hcalm : ev.calm = true) :
    (s.step m ev).Fresh := by
  cases ev with
  | call u c =>
    rw [step]
    split
    · next halive => exact (call_moved m s u c).fresh hs h halive hcalm
    · exact h
  | born pid =>
    have hmore : ∀ p, s.alive p = true → Function.update s.alive pid true p = true := by
      intro p hp
      rw [Function.update_apply]
      split
      · rfl
      · exact hp
    refine ⟨fun fd => ?_, fun v => ?_⟩
    · rcases h.content fd with hempty | ⟨p, hp, htext⟩
      · exact .inl hempty
      · exact .inr ⟨p, hmore p hp, htext⟩
    · have hv := h.stages v
      change Fits _ v.pid (s.stage v)
      cases hstage : s.stage v with
      | writing fd rest =>
        rw [hstage] at hv
        exact hv
      | checking p =>
        rw [hstage] at hv
        exact hmore p hv
      | dead =>
        rw [hstage] at hv
        exact hv
      | outside | opened | free | locked => trivial
  | die pid => cases hcalm

/-- **Mutual exclusion in any order of the calls**: when there is no file at first, no process dies
or shuts down a port without a connection, and every text is written at once, one user has the
lock at most in every state of every run. -/
theorem lock_exclusive_of_calm (m : Machine) (alive : Pid → Bool) {evs : List LockEvent}
    (h : ∀ ev ∈ evs, ev.calm = true) : Run.Always (step m) Exclusive (start alive none) evs := by
  refine Run.Always.of_invariant (I := fun s => s.Sound ∧ s.Standing ∧ s.Fresh)
    (C := fun _ ev => ev.calm = true) ?_ ?_ (fun s hs => hs.2.1.exclusive hs.1)
    (Run.eachStep_events.2 h)
  · have hstanding : (start alive none).Standing := fun u fd hu => by cases hu
    exact ⟨start_sound alive none, hstanding, fun fd => .inl rfl, fun u => trivial⟩
  · rintro s ev ⟨hs, hstanding, hfresh⟩ hcalm
    refine ⟨step_sound hs ev, (step_standing_iff hs hstanding ev).2 ?_, step_fresh hs hfresh hcalm⟩
    cases ev with
    | call u c =>
      rintro - (⟨-, hdead⟩ | ⟨rfl, -⟩)
      · -- No user finds that a process is dead.
        have hu := hfresh.stages u
        rw [hdead] at hu
        exact hu.elim
      · cases hcalm
    | born pid => trivial
    | die pid => trivial

/-- Two users try at once. -/
theorem lock_exclusive_of_calm_two :
    let u : User := ⟨⟨100, by decide⟩, 0⟩
    let v : User := ⟨⟨200, by decide⟩, 0⟩
    Run.Always (step ⟨.big, .unsigned⟩) Exclusive (start (fun _ => true) none)
      [.call u (.open true), .call v (.open true), .call v (.create true), .call u (.create true),
        .call v (.write 11)] :=
  lock_exclusive_of_calm _ _ (by decide)

/-- A text that is written in pieces: four blanks of it are the number of a process that is not
there. -/
example :
    let u : User := ⟨⟨100, by decide⟩, 0⟩
    let v : User := ⟨⟨200, by decide⟩, 0⟩
    let evs : List LockEvent := [.call u (.open true), .call u (.create true), .call u (.write 4),
      .call v (.open true), .call v (.read true), .call v .kill, .call v (.unlink true),
      .call v (.create true), .call v (.write 11), .call u (.write 7)]
    let s := evs.foldl (step ⟨.big, .unsigned⟩) (start (fun pid => pid.1 < 300) none)
    s.stage u = .locked 1 ∧ s.stage v = .locked 2 := by
  decide +kernel

/-- A process with a port that has no connection: its end removes the file of one that has the
lock. -/
example :
    let u : User := ⟨⟨100, by decide⟩, 0⟩
    let v : User := ⟨⟨200, by decide⟩, 0⟩
    let w : User := ⟨⟨300, by decide⟩, 0⟩
    let evs : List LockEvent := [.call u (.open true), .call u (.create true), .call u (.write 11),
      .call w (.rmUnconnected true), .call v (.open true), .call v (.create true),
      .call v (.write 11)]
    let s := evs.foldl (step ⟨.big, .unsigned⟩) (start (fun _ => true) none)
    s.stage u = .locked 1 ∧ s.stage v = .locked 2 := by
  decide +kernel

/-! ### Files that stay -/

/-- The file says nothing, and no user that has looked at it thinks otherwise. -/
structure Stuck (m : Machine) (fd : Inode) (s : LockDir) : Prop where
  entry : s.entry = some fd
  unreadable : toPid (readPid m (s.content fd)) = none
  stages : ∀ u, s.stage u = .free ∨ s.stage u = .opened fd ∨ ∃ rv, s.stage u = .outside rv

theorem Stuck.goto {fd : Inode} (h : s.Stuck m fd) {stage : LockStage}
    (hstage : stage = .free ∨ stage = .opened fd ∨ ∃ rv, stage = .outside rv) :
    (s.goto u stage).Stuck m fd := by
  refine ⟨h.entry, h.unreadable, fun v => ?_⟩
  rw [goto_stage]
  split
  · exact hstage
  · exact h.stages v

theorem Stuck.file {fd : Inode} (h : s.Stuck m fd) (u : User) : (s.stage u).file = none := by
  obtain hstage | hstage | ⟨rv, hstage⟩ := h.stages u
  · simp [hstage, LockStage.file]
  · simp [hstage, LockStage.file]
  · simp [hstage, LockStage.file]

/-- No file is removed for a port that has no connection. -/
def Leaves (s : LockDir) : LockEvent → Prop
  | .call u (.rmUnconnected true) => s.alive u.pid = true → ∀ rv, s.stage u ≠ .outside rv
  | _ => True

theorem Moved.stuck {c : LockCall} (hmove : Moved m s u c s') {fd : Inode} (h : s.Stuck m fd)
    (hleaves : ¬ s.Removes u c) : s'.Stuck m fd := by
  have hu := h.stages u
  cases hmove with
  | stay => exact h
  | passed stage hfile hstage =>
    obtain rfl | ⟨rv, rfl⟩ := hstage
    · exact h.goto (.inl rfl)
    · exact h.goto (.inr (.inr ⟨rv, rfl⟩))
  | opened fd' hfile hentry =>
    obtain rfl := Option.some.inj (h.entry.symm.trans hentry)
    exact h.goto (.inr (.inl rfl))
  | checking fd' pid hstage hpid =>
    obtain rfl : fd' = fd := by simpa [hstage] using hu
    cases h.unreadable.symm.trans hpid
  | dead pid hstage halive =>
    simp [hstage] at hu
  | unlinked stage hremoves hstage => exact absurd hremoves hleaves
  | made hstage hentry => cases h.entry.symm.trans hentry
  | wrote fd' rest count hc hstage => simp [hstage] at hu
  | failed fd' rest hstage => simp [hstage] at hu
  | removed fd' entry hstage hentry => simp [hstage] at hu

/-- Nobody takes the file for that of a dead process. -/
theorem Stuck.removes {fd : Inode} (h : s.Stuck m fd) {c : LockCall} (hremoves : s.Removes u c) :
    c = .rmUnconnected true ∧ ∃ rv, s.stage u = .outside rv := by
  obtain ⟨-, hdead⟩ | hrm := hremoves
  · have hu := h.stages u
    simp [hdead] at hu
  · exact hrm

theorem step_stuck {fd : Inode} (h : s.Stuck m fd) {ev : LockEvent} (hleaves : s.Leaves ev) :
    (s.step m ev).Stuck m fd := by
  cases ev with
  | call u c =>
    rw [step]
    split
    · next halive =>
      refine (call_moved m s u c).stuck h fun hremoves => ?_
      obtain ⟨rfl, rv, hstage⟩ := h.removes hremoves
      exact hleaves halive rv hstage
    · exact h
  | born pid => exact ⟨h.entry, h.unreadable, h.stages⟩
  | die pid =>
    refine ⟨h.entry, h.unreadable, fun v => ?_⟩
    have hdie : (s.step m (.die pid)).stage v =
        if v.pid = pid then .outside none else s.stage v := rfl
    rw [hdie]
    split
    · exact .inr (.inr ⟨none, rfl⟩)
    · exact h.stages v

/-- A file that is removed for a port without a connection is gone. -/
theorem step_removed {ev : LockEvent} (hleaves : ¬ s.Leaves ev) : (s.step m ev).entry = none := by
  unfold Leaves at hleaves
  split at hleaves
  · next u =>
    simp only [not_forall, not_not] at hleaves
    obtain ⟨halive, rv, hstage⟩ := hleaves
    obtain ⟨stage, -, hcall⟩ := @Removes.call_eq m s u (.rmUnconnected true)
      (.inr ⟨rfl, rv, hstage⟩)
    rw [step, if_pos halive, hcall]
  · exact absurd trivial hleaves

/-- **A lock file that says nothing**: when it is there and no user is in `uucp_mk_lock`, it is
there in every state of a run, and no user gets the lock again, if and only if no process of the
run shuts down a port without a connection and removes it. -/
theorem lock_stuck {fd : Inode} (hentry : s.entry = some fd)
    (hunreadable : toPid (readPid m (s.content fd)) = none)
    (houtside : ∀ u, ∃ rv, s.stage u = .outside rv) (evs : List LockEvent) :
    Run.Always (step m) (fun t => t.entry = some fd ∧ ∀ u, (t.stage u).file = none) s evs ↔
      Run.EachStep (step m) Leaves s evs := by
  refine Run.always_iff_of_invariant (I := Stuck m fd)
    ⟨hentry, hunreadable, fun u => .inr (.inr (houtside u))⟩
    (fun _ _ h hleaves => step_stuck h hleaves) (fun _ h => ⟨h.entry, h.file⟩) ?_
  rintro t ev - hleaves ⟨hstill, -⟩
  cases (@step_removed m t ev hleaves).symm.trans hstill

/-- A process dies before it has written anything, and another one comes. -/
theorem lock_stuck_empty :
    let m : Machine := ⟨.big, .unsigned⟩
    let u : User := ⟨⟨100, by decide⟩, 0⟩
    let v : User := ⟨⟨200, by decide⟩, 0⟩
    let s := [.call u (.open true), .call u (.create true), .die u.pid].foldl (step m)
      (start (fun _ => true) none)
    Run.Always (step m) (fun t => t.entry = some 1 ∧ ∀ u, (t.stage u).file = none) s
      [.call v (.open true), .call v (.read true), .call v .kill, .call v (.unlink true)] := by
  intro m u v s
  refine (lock_stuck rfl (by decide) (fun w => ?_) _).2
    ⟨trivial, trivial, trivial, trivial, trivial⟩
  change ∃ rv, (if w.pid = u.pid then LockStage.outside none else
    Function.update (Function.update (fun _ => LockStage.outside none) u LockStage.free) u
      (LockStage.writing 1 (lockBytes u.pid)) w) = .outside rv
  split
  · exact ⟨none, rfl⟩
  · next hpid =>
    have hne : w ≠ u := fun h => hpid (congrArg User.pid h)
    exact ⟨none, by rw [Function.update_of_ne hne, Function.update_of_ne hne]⟩

end LockDir

end SerialServer.Dataxfer
