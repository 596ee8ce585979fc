import Mathlib.Data.List.Nodup
import Mathlib.Data.Set.Insert
import Mathlib.Logic.Function.Basic
import Mathlib.Tactic.Common

/-!
# SerialServer.Core.Roster

Lists of records with a key, and tables that say who holds what.

`exchange` puts a record in the place of the one with a given key. As long as keys are
distinct, that is the replacement of one element of the set of records
(`setOf_mem_exchange`).

A record may hold a handle, of which some table elsewhere keeps a tag of its holder. The table
is in `Custody` of a set of records if it says of every handle just that. `grant` and `revoke`
are what is done to the table when a record comes or goes; the rules say which set the table is
in custody of afterwards.
-/

namespace SerialServer.Roster

variable {α κ η τ : Type*}

/-! ### Records with keys -/

section Keys

variable [DecidableEq κ] {key : α → κ} {k : κ} {b : α} {l : List α}

/-- Put `b` in the place of the record with key `k`. -/
def exchange (key : α → κ) (k : κ) (b : α) (l : List α) : List α :=
  l.map fun a => if key a = k then b else a

/-- Take out the record with key `k`. -/
def discard (key : α → κ) (k : κ) (l : List α) : List α := l.filter fun a => key a ≠ k

omit [DecidableEq κ] in
/-- Distinct keys belong to distinct records. -/
theorem eq_of_key (h : (l.map key).Nodup) {a a' : α} (ha : a ∈ l) (ha' : a' ∈ l)
    (hkey : key a = key a') : a = a' := List.inj_on_of_nodup_map h ha ha' hkey

theorem setOf_mem_exchange (h : (l.map key).Nodup) {a : α} (ha : a ∈ l) :
    {x | x ∈ exchange key (key a) b l} = insert b ({x | x ∈ l} \ {a}) := by
  ext x
  simp only [exchange, List.mem_map, Set.mem_ofPred_eq, Set.mem_insert_iff, Set.mem_sdiff,
    Set.mem_singleton_iff]
  constructor
  · rintro ⟨y, hy, rfl⟩
    split
    · exact .inl rfl
    · next hne => exact .inr ⟨hy, fun hya => hne (congrArg key hya)⟩
  · rintro (rfl | ⟨hx, hne⟩)
    · exact ⟨a, ha, if_pos rfl⟩
    · exact ⟨x, hx, if_neg fun hkey => hne (eq_of_key h hx ha hkey)⟩

theorem setOf_mem_discard (h : (l.map key).Nodup) {a : α} (ha : a ∈ l) :
    {x | x ∈ discard key (key a) l} = {x | x ∈ l} \ {a} := by
  ext x
  simp only [discard, List.mem_filter, decide_eq_true_eq, Set.mem_ofPred_eq, Set.mem_sdiff,
    Set.mem_singleton_iff]
  exact and_congr_right fun hx =>
    ⟨fun hne hxa => hne (congrArg key hxa), fun hne hkey => hne (eq_of_key h hx ha hkey)⟩

/-- A key that the new record shares with the old one stays where it is. -/
theorem map_exchange {γ : Type*} {g : α → γ} (hg : ∀ a ∈ l, key a = k → g b = g a) :
    (exchange key k b l).map g = l.map g := by
  rw [exchange, List.map_map]
  refine List.map_congr_left fun a ha => ?_
  rw [Function.comp_apply]
  split
  · next hkey => exact hg a ha hkey
  · rfl

/-- The keys stay distinct when the new one is the old one, or new. -/
theorem nodup_exchange (h : (l.map key).Nodup) (hb : key b = k ∨ key b ∉ l.map key) :
    ((exchange key k b l).map key).Nodup := by
  rcases hb with hsame | hnew
  · rwa [map_exchange fun a _ ha => hsame.trans ha.symm]
  · induction l with
    | nil => exact h
    | cons a l ih =>
      rw [List.map_cons, List.nodup_cons] at h
      rw [List.map_cons, List.mem_cons, not_or] at hnew
      rw [exchange, List.map_cons, List.map_cons, List.nodup_cons]
      refine ⟨fun hmem => ?_, ih h.2 hnew.2⟩
      obtain ⟨x, hx, hkey⟩ := List.mem_map.1 hmem
      obtain ⟨y, hy, rfl⟩ := List.mem_map.1 hx
      have hyl : key y ∈ l.map key := List.mem_map_of_mem hy
      split at hkey
      · split at hkey
        · next hyk hak => exact h.1 (hak.trans hyk.symm ▸ hyl)
        · exact hnew.1 hkey
      · split at hkey
        · exact hnew.2 (hkey ▸ hyl)
        · exact h.1 (hkey ▸ hyl)

omit [DecidableEq κ] in
/-- They stay distinct when a record comes with a new one. -/
theorem nodup_concat (h : (l.map key).Nodup) (hb : key b ∉ l.map key) :
    ((l ++ [b]).map key).Nodup := by
  rw [List.map_append, List.map_singleton]
  refine h.append (List.nodup_singleton _) fun k hk hkb => ?_
  rw [List.mem_singleton.1 hkb] at hk
  exact hb hk

/-- As long as keys are distinct, only one record is put in another place, or taken out. -/
theorem exchange_append {a : α} {l' : List α} (h : ((l ++ a :: l').map key).Nodup) :
    exchange key (key a) b (l ++ a :: l') = l ++ b :: l' := by
  have hne : ∀ x ∈ l ++ l', key x ≠ key a := by
    rw [List.map_append, List.map_cons, List.nodup_middle, List.nodup_cons, ← List.map_append] at h
    exact fun x hx hkey => h.1 (hkey ▸ List.mem_map_of_mem hx)
  have hkeep : ∀ xs : List α, (∀ x ∈ xs, key x ≠ key a) → exchange key (key a) b xs = xs := by
    intro xs hxs
    refine (List.map_congr_left fun x hx => if_neg (hxs x hx)).trans (List.map_id _)
  rw [exchange, List.map_append, List.map_cons, if_pos rfl]
  congr 1
  · exact hkeep l fun x hx => hne x (List.mem_append_left _ hx)
  · exact congrArg _ (hkeep l' fun x hx => hne x (List.mem_append_right _ hx))

theorem discard_append {a : α} {l' : List α} (h : ((l ++ a :: l').map key).Nodup) :
    discard key (key a) (l ++ a :: l') = l ++ l' := by
  have hne : ∀ x ∈ l ++ l', key x ≠ key a := by
    rw [List.map_append, List.map_cons, List.nodup_middle, List.nodup_cons, ← List.map_append] at h
    exact fun x hx hkey => h.1 (hkey ▸ List.mem_map_of_mem hx)
  rw [discard, List.filter_append, List.filter_cons, if_neg (by simp), ← List.filter_append]
  exact List.filter_eq_self.2 fun x hx => by simpa using hne x hx

theorem mem_of_mem_exchange {x : α} (h : x ∈ exchange key k b l) : x = b ∨ x ∈ l := by
  obtain ⟨a, ha, rfl⟩ := List.mem_map.1 h
  split
  · exact .inl rfl
  · exact .inr ha

end Keys

/-! ### Who holds what -/

section Custody

variable [DecidableEq η] {handle : α → Option η} {tag : α → τ} {S : Set α} {table : η → Option τ}

/-- The table says of every handle who holds it. -/
def Custody (handle : α → Option η) (tag : α → τ) (S : Set α) (table : η → Option τ) : Prop :=
  ∀ h t, table h = some t ↔ ∃ a ∈ S, handle a = some h ∧ tag a = t

/-- The table learns that `t` holds a handle, if it does hold one. -/
def grant (table : η → Option τ) (o : Option η) (t : τ) : η → Option τ :=
  match o with
  | some h => Function.update table h (some t)
  | none => table

/-- The handle is given back, if there is one. -/
def revoke (table : η → Option τ) (o : Option η) : η → Option τ :=
  match o with
  | some h => Function.update table h none
  | none => table

theorem grant_apply (table : η → Option τ) (o : Option η) (t : τ) (h : η) :
    grant table o t h = if o = some h then some t else table h := by
  cases o with
  | none => rfl
  | some h' =>
    rw [grant, Function.update_apply]
    refine if_congr ?_ rfl rfl
    rw [Option.some.injEq, eq_comm]

theorem revoke_apply (table : η → Option τ) (o : Option η) (h : η) :
    revoke table o h = if o = some h then none else table h := by
  cases o with
  | none => rfl
  | some h' =>
    rw [revoke, Function.update_apply]
    refine if_congr ?_ rfl rfl
    rw [Option.some.injEq, eq_comm]

omit [DecidableEq η] in
/-- A handle has one holder. -/
theorem Custody.unique (hc : Custody handle tag S table) (htag : Set.InjOn tag S) {a b : α}
    (ha : a ∈ S) (hb : b ∈ S) {h : η} (hah : handle a = some h) (hbh : handle b = some h) :
    a = b := by
  have hta : table h = some (tag a) := (hc h _).2 ⟨a, ha, hah, rfl⟩
  have htb : table h = some (tag b) := (hc h _).2 ⟨b, hb, hbh, rfl⟩
  exact htag ha hb (Option.some.inj (hta.symm.trans htb))

omit [DecidableEq η] in
theorem Custody.of_mem (hc : Custody handle tag S table) {a : α} (ha : a ∈ S) {h : η}
    (hah : handle a = some h) : table h = some (tag a) := (hc h _).2 ⟨a, ha, hah, rfl⟩

omit [DecidableEq η] in
/-- A handle without a holder is free, and the other way round. -/
theorem Custody.free_iff (hc : Custody handle tag S table) {h : η} :
    table h = none ↔ ∀ a ∈ S, handle a ≠ some h := by
  rw [Option.eq_none_iff_forall_ne_some]
  constructor
  · intro hnone a ha hah
    exact hnone (tag a) (hc.of_mem ha hah)
  · intro hnone t ht
    obtain ⟨a, ha, hah, -⟩ := (hc h t).1 ht
    exact hnone a ha hah

/-- **A record comes**, with a handle that was free. -/
theorem Custody.insert (hc : Custody handle tag S table) {b : α}
    (hfree : ∀ h, handle b = some h → table h = none) :
    Custody handle tag (insert b S) (grant table (handle b) (tag b)) := by
  intro h t
  rw [grant_apply]
  split
  · next hb =>
    rw [Option.some.injEq]
    constructor
    · rintro rfl
      exact ⟨b, Set.mem_insert _ _, hb, rfl⟩
    · rintro ⟨a, rfl | ha, hah, rfl⟩
      · rfl
      · exact absurd hah (hc.free_iff.1 (hfree h hb) a ha)
  · next hb =>
    rw [hc h t]
    constructor
    · rintro ⟨a, ha, hah⟩
      exact ⟨a, Set.mem_insert_of_mem _ ha, hah⟩
    · rintro ⟨a, rfl | ha, hah⟩
      · exact absurd hah.1 hb
      · exact ⟨a, ha, hah⟩

/-- **A record goes**, and gives its handle back. -/
theorem Custody.erase (hc : Custody handle tag S table) (htag : Set.InjOn tag S) {a : α}
    (ha : a ∈ S) : Custody handle tag (S \ {a}) (revoke table (handle a)) := by
  intro h t
  rw [revoke_apply]
  split
  · next hah =>
    refine iff_of_false nofun ?_
    rintro ⟨x, ⟨hx, hne⟩, hxh, -⟩
    exact hne (hc.unique htag hx ha hxh hah)
  · next hah =>
    rw [hc h t]
    constructor
    · rintro ⟨x, hx, hxh, ht⟩
      exact ⟨x, ⟨hx, fun hxa => hah (hxa ▸ hxh)⟩, hxh, ht⟩
    · rintro ⟨x, ⟨hx, -⟩, hxh⟩
      exact ⟨x, hx, hxh⟩

/-- **A record takes the place of another** and its handle. -/
theorem Custody.succeed (hc : Custody handle tag S table) (htag : Set.InjOn tag S) {a b : α}
    (ha : a ∈ S) (hhandle : handle b = handle a) :
    Custody handle tag (Insert.insert b (S \ {a})) (grant table (handle a) (tag b)) := by
  have hfree : ∀ h, handle b = some h → revoke table (handle a) h = none := by
    intro h hbh
    rw [revoke_apply, if_pos (hhandle ▸ hbh)]
  have hboth := (hc.erase htag ha).insert hfree
  have htable : grant (revoke table (handle a)) (handle b) (tag b) =
      grant table (handle a) (tag b) := by
    funext h
    rw [grant_apply, grant_apply, revoke_apply, hhandle]
    split
    · rfl
    · rfl
  rwa [htable] at hboth

/-- A record that has changed in other ways changes nothing. -/
theorem Custody.amend (hc : Custody handle tag S table) (htag : Set.InjOn tag S) {a b : α}
    (ha : a ∈ S) (hhandle : handle b = handle a) (hsame : tag b = tag a) :
    Custody handle tag (Insert.insert b (S \ {a})) table := by
  have hsucceed := hc.succeed htag ha hhandle
  have htable : grant table (handle a) (tag b) = table := by
    funext h
    rw [grant_apply]
    split
    · next hah => rw [hsame, hc.of_mem ha hah]
    · rfl
  rwa [htable] at hsucceed

end Custody

end SerialServer.Roster
