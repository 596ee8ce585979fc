import SerialServer.Discovery.Listing

/-!
# SerialServer.Discovery.PortNames

The settings of a line, and the name that is found in them.

A line that fits one buffer is read as its words: the name of the port, then keys and values
in turn. `getRealName` wants five of them, so two settings, and looks for `RealPortName` in the
second place and the fourth. So an ordinary line is read right (`read_iff_simple`) when it has
two settings and `RealPortName` is the first or the second of them or not there at all; the
number and the name have to fit their tables. Of a line with one setting nothing is read,
which is right for a port that has no name and is not counted anyway.

`table_right_iff` is the result for a whole listing.
-/

namespace SerialServer.Main37

open CString Scan

/-! ### Ordinary lines -/

/-- A port's line that fits one buffer, and whose values are words. -/
structure Ordinary (indent n : Nat) (settings : List Setting) : Prop where
  fits : (Line.port indent n settings).text.length ≤ 899
  value_token : ∀ s ∈ settings, Token s.value
  value_ne_nil : ∀ s ∈ settings, s.value ≠ []
  value_plain : ∀ s ∈ settings, '=' ∉ s.value

/-- A line whose settings are read right: there are two of them at least, none behind the
second is `RealPortName`, and the number and the name are not too large; or there are less,
and the port has no name and is not counted anyway. -/
def Simple (numbers : List Nat) (n : Nat) (settings : List Setting) : Prop :=
  (2 ≤ settings.length ∧ n < 50 ∧ (realName settings).length < 20 ∧
      "RealPortName".toList ∉ (settings.drop 2).map Setting.key) ∨
    (settings.length < 2 ∧ "RealPortName".toList ∉ settings.map Setting.key ∧ Beyond numbers n)

/-- No character of the text ends a line or a string. -/
def Plain (t : List Char) : Prop := ∀ c ∈ t, c ≠ '\n' ∧ c.toNat ≠ 0

theorem Plain.append {s t : List Char} (hs : Plain s) (ht : Plain t) : Plain (s ++ t) := by
  intro c hc
  rcases List.mem_append.1 hc with h | h
  · exact hs c h
  · exact ht c h

theorem plain_of_token {t : List Char} (ht : Token t) : Plain t := by
  intro c hc
  refine ⟨?_, ht.noNul c hc⟩
  rintro rfl
  exact absurd (ht.solid '\n' hc) (by decide)

theorem Plain.cons {c : Char} {t : List Char} (hc : c ≠ '\n' ∧ c.toNat ≠ 0) (ht : Plain t) :
    Plain (c :: t) := List.forall_mem_cons.2 ⟨hc, ht⟩

theorem settingsText_cons (s s' : Setting) (ss : List Setting) :
    settingsText (s :: s' :: ss) = s.text ++ ',' :: settingsText (s' :: ss) := by
  simp [settingsText, List.intercalate]

theorem settingsText_singleton (s : Setting) : settingsText [s] = s.text := by
  simp [settingsText, List.intercalate]

theorem plain_settingsText {settings : List Setting}
    (h : ∀ s ∈ settings, Token s.key ∧ Token s.value) : Plain (settingsText settings) := by
  have htext : ∀ s ∈ settings, Plain s.text := fun s hs =>
    (plain_of_token (h s hs).1).append ((plain_of_token (h s hs).2).cons (by decide))
  clear h
  induction settings with
  | nil => intro c hc; cases hc
  | cons s ss ih =>
    rw [List.forall_mem_cons] at htext
    cases ss with
    | nil =>
      rw [settingsText_singleton]
      exact htext.1
    | cons s' ss =>
      rw [settingsText_cons]
      exact htext.1.append ((ih htext.2).cons (by decide))

theorem token_portWord (n : Nat) : Token (portWord n) := by
  have hcnca : Token "CNCA".toList := by decide
  have hdigits := token_intText n
  rw [intText, if_neg (by omega), Int.natAbs_natCast] at hdigits
  exact ⟨hcnca.solid.append hdigits.solid, List.forall_mem_append.2 ⟨hcnca.noNul, hdigits.noNul⟩⟩

theorem plain_port {indent n : Nat} {settings : List Setting}
    (h : ∀ s ∈ settings, Token s.key ∧ Token s.value) :
    Plain (Line.port indent n settings).text := by
  have hindent : Plain (List.replicate indent ' ') := by
    intro c hc
    rw [List.eq_of_mem_replicate hc]
    decide
  exact hindent.append ((plain_of_token (token_portWord n)).append
    ((plain_settingsText h).cons (by decide)))

/-! #### Their words -/

theorem blank_eq_self {p : List Char} (he : '=' ∉ p) (hc : ',' ∉ p) : blank p = p := by
  have hone : ∀ {ch : Char}, ch ∉ p → rmChar p ch = p := by
    intro ch hch
    refine (List.map_congr_left fun c hc => if_neg ?_).trans (List.map_id p)
    rintro rfl
    exact hch hc
  rw [blank, hone he, hone hc]

theorem words_indent (indent : Nat) (t : List Char) :
    words (List.replicate indent ' ' ++ t) = words t := by
  induction indent with
  | zero => rfl
  | succ k ih => rw [List.replicate_succ, List.cons_append, words_cons (by decide), ih]

theorem words_setting {s : Setting} (hs : s.Formed) (hv : Token s.value) (hne : s.value ≠ [])
    (hplain : '=' ∉ s.value) : words (blank s.text) = [s.key, s.value] := by
  have hblank : blank s.text = s.key ++ ' ' :: s.value := by
    rw [Setting.text, blank_append, blank_eq_self hs.key_plain.1 hs.key_plain.2]
    have hcons : blank ('=' :: s.value) = ' ' :: blank s.value := rfl
    rw [hcons, blank_eq_self hplain hs.value_plain.2]
  rw [hblank, words_append_cons s.key s.value (by decide), words_solid hs.key_token.solid
    hs.key_ne_nil, words_solid hv.solid hne, List.singleton_append]

/-- The words of the settings: keys and values in turn. -/
theorem words_settingsText {settings : List Setting}
    (h : ∀ s ∈ settings, words (blank s.text) = [s.key, s.value]) :
    words (blank (settingsText settings)) = settings.flatMap fun s => [s.key, s.value] := by
  induction settings with
  | nil => rfl
  | cons s ss ih =>
    rw [List.forall_mem_cons] at h
    cases ss with
    | nil => rw [settingsText_singleton, h.1, List.flatMap_singleton]
    | cons s' ss =>
      have hcons : blank (',' :: settingsText (s' :: ss)) =
          ' ' :: blank (settingsText (s' :: ss)) := rfl
      rw [settingsText_cons, blank_append, hcons, words_append_cons _ _ (by decide), h.1, ih h.2]
      rfl

theorem not_mem_portWord {n : Nat} {c : Char} (hcnca : c ∉ "CNCA".toList)
    (hdigit : c.isDigit = false) : c ∉ portWord n := by
  intro hc
  rcases List.mem_append.1 hc with h | h
  · exact hcnca h
  · have hc' := Nat.isDigit_of_mem_toDigits (by decide) (by decide) h
    rw [hdigit] at hc'
    cases hc'

/-- **The words of a port's line.** -/
theorem words_port (indent n : Nat) {settings : List Setting}
    (h : ∀ s ∈ settings, words (blank s.text) = [s.key, s.value]) :
    words (blank (Line.port indent n settings).text) =
      portWord n :: settings.flatMap fun s => [s.key, s.value] := by
  have hword : blank (portWord n) = portWord n :=
    blank_eq_self (not_mem_portWord (by decide) (by decide)) (not_mem_portWord (by decide)
      (by decide))
  have hindent : blank (List.replicate indent ' ') = List.replicate indent ' ' :=
    blank_eq_self (fun h => absurd (List.eq_of_mem_replicate h) (by decide))
      fun h => absurd (List.eq_of_mem_replicate h) (by decide)
  have hcons : blank (' ' :: settingsText settings) = ' ' :: blank (settingsText settings) := rfl
  rw [Line.text, blank_append, blank_append, hword, hindent, hcons, words_indent,
    words_append_cons _ _ (by decide), words_settingsText h,
    words_solid (token_portWord n).solid (by simp [portWord]), List.singleton_append]

/-! #### Their rows -/

/-- A line that fits one buffer. -/
theorem rows_of_fits {l : Line} (hplain : Plain l.text) (hfits : l.text.length ≤ 899) :
    l.rows = (row l.text).toList ∧
      ((∀ buf ∈ fgets 900 [] l.text, Within szRoom (words (blank (cstr buf)))) ↔
        Within szRoom (words (blank l.text))) := by
  have hcstr : cstr l.text = l.text := cstr_eq_self fun c hc => (hplain c hc).2
  by_cases hne : l.text = []
  · have hbufs : fgets 900 [] l.text = [] := by
      rw [hne]
      rfl
    rw [Line.rows, hbufs, hne]
    exact ⟨rfl, iff_of_true (by simp) trivial⟩
  · have hlen : ([] : List Char).length + l.text.length < 900 := by
      rw [List.length_nil]
      omega
    have hbufs : fgets 900 [] l.text = [l.text] :=
      fgets_line (fun hmem => (hplain _ hmem).1 rfl) hlen (by simpa using hne)
    rw [Line.rows, hbufs, List.forall_mem_singleton, hcstr]
    refine ⟨?_, Iff.rfl⟩
    rw [List.filterMap_cons]
    cases row l.text <;> rfl

/-- The number behind `CNCA`. -/
theorem integer_drop_portWord {n : Nat} (hn : n < 50) (ws : List (List Char)) :
    (integer ((szString (portWord n :: ws)).drop 4)).map Prod.fst = some (n : Int) := by
  have hdigits : (Nat.toDigits 10 n).length ≤ 2 :=
    (Nat.length_toDigits_le_iff (by decide) (by decide)).2 (by omega)
  have hlen : (portWord n).length < 100 := by
    rw [portWord, List.length_append]
    have hcnca : "CNCA".toList.length = 4 := by decide
    omega
  have hdrop : (portWord n).drop 4 = Nat.toDigits 10 n := List.drop_left' (by decide)
  rw [szString_cons ws hlen, hdrop, integer_toDigits, saturate]
  simp only [Option.map_some, Option.some.injEq]
  omega

theorem realName_cons (s : Setting) (ss : List Setting) :
    realName (s :: ss) = if s.key = "RealPortName".toList then s.value else realName ss := by
  rw [realName, List.find?_cons]
  by_cases h : s.key = "RealPortName".toList
  · rw [if_pos h, decide_eq_true h]
    rfl
  · rw [if_neg h, decide_eq_false h]
    rfl

theorem realName_eq_nil_iff {settings : List Setting} (h : ∀ s ∈ settings, s.value ≠ []) :
    realName settings = [] ↔ "RealPortName".toList ∉ settings.map Setting.key := by
  induction settings with
  | nil => exact iff_of_true rfl List.not_mem_nil
  | cons s ss ih =>
    rw [List.forall_mem_cons] at h
    rw [realName_cons, List.map_cons, List.mem_cons, not_or, ← ih h.2]
    split
    · next hkey => exact iff_of_false h.1 fun h' => h'.1 hkey.symm
    · next hkey => exact ⟨fun h' => ⟨Ne.symm hkey, h'⟩, fun h' => h'.2⟩

/-- The name that is found among the first two settings. -/
def foundName (s₁ s₂ : Setting) : List Char :=
  if s₂.key = "RealPortName".toList then s₂.value
  else if s₁.key = "RealPortName".toList then s₁.value
  else []

/-- It is the port's exactly when it is not behind them. -/
theorem foundName_eq_iff {s₁ s₂ : Setting} {ss : List Setting}
    (hkeys : ((s₁ :: s₂ :: ss).map Setting.key).Nodup) (h : ∀ s ∈ ss, s.value ≠ []) :
    foundName s₁ s₂ = realName (s₁ :: s₂ :: ss) ↔
      "RealPortName".toList ∉ ss.map Setting.key := by
  rw [List.map_cons, List.map_cons, List.nodup_cons, List.nodup_cons, List.mem_cons, not_or]
    at hkeys
  obtain ⟨⟨hne, hnot₁⟩, hnot₂, -⟩ := hkeys
  rw [foundName, realName_cons, realName_cons]
  by_cases h₁ : s₁.key = "RealPortName".toList
  · rw [if_pos h₁, if_pos h₁, ← h₁, if_neg (Ne.symm hne)]
    exact iff_of_true rfl hnot₁
  · rw [if_neg h₁, if_neg h₁]
    by_cases h₂ : s₂.key = "RealPortName".toList
    · rw [if_pos h₂, if_pos h₂, ← h₂]
      exact iff_of_true rfl hnot₂
    · rw [if_neg h₂, if_neg h₂, eq_comm]
      exact realName_eq_nil_iff h

/-- The row of a line with two settings. -/
theorem row_port {n : Nat} {buf : List Char} {s₁ s₂ : Setting} {ws : List (List Char)}
    (h : words (blank (cstr buf)) =
      portWord n :: s₁.key :: s₁.value :: s₂.key :: s₂.value :: ws)
    (hlen : s₁.value.length ≤ 99) : ∃ r, row buf = some r ∧ r.text = foundName s₁ s₂ ∧
      (n < 50 → r.number = some (n : Int)) := by
  have hcnca : (portWord n).take 4 = "CNCA".toList := List.take_left' (by decide)
  rw [row_words h, if_pos hcnca]
  refine ⟨_, rfl, ?_, fun hn => integer_drop_portWord hn _⟩
  have hsz : szString [s₁.value, s₂.key, s₂.value] = s₁.value := szString_cons _ (by omega)
  rw [Row.text, foundName, hsz]
  split
  · rfl
  · split <;> rfl

/-- One row is the port's own if its number and its name fit. -/
theorem ownRows_singleton {n : Nat} {r : Row} (hr : n < 50 → r.number = some (n : Int)) :
    OwnRows n [r] ↔ n < 50 ∧ r.text.length < 20 := by
  constructor
  · rintro ⟨hn, -, hall⟩
    exact ⟨hn, (hall r (List.mem_singleton_self r)).2⟩
  · rintro ⟨hn, hlen⟩
    refine ⟨hn, hr hn, List.forall_mem_singleton.2 ⟨?_, hlen⟩⟩
    rw [hr hn, Option.getD_some]

/-! ### Ordinary lines, read -/

theorem length_keyValues (settings : List Setting) :
    (settings.flatMap fun s => [s.key, s.value]).length = 2 * settings.length := by
  induction settings with
  | nil => rfl
  | cons s ss ih =>
    simp only [List.flatMap_cons, List.length_append, ih, List.length_cons, List.length_nil]
    omega

/-- The words of an ordinary line fit `sz`. -/
theorem Ordinary.within {indent n : Nat} {settings : List Setting} (h : Ordinary indent n settings)
    (hsettings : ∀ s ∈ settings, s.Formed) :
    Within szRoom (portWord n :: settings.flatMap fun s => [s.key, s.value]) := by
  have hfits := h.fits
  rw [Line.text, List.length_append, List.length_append] at hfits
  have hrest : ∀ w ∈ settings.flatMap fun s => [s.key, s.value], w.length < 100 := by
    intro w hw
    obtain ⟨s, hs, hmem⟩ := List.mem_flatMap.1 hw
    have hkey := (hsettings s hs).key_le
    have hvalue := (hsettings s hs).value_le
    simp only [List.mem_cons, List.not_mem_nil, or_false] at hmem
    rcases hmem with rfl | rfl <;> omega
  exact ⟨by omega, within_of_forall (by decide) hrest⟩

section Settings

variable {indent n : Nat} {settings : List Setting}

theorem Ordinary.plain (h : Ordinary indent n settings) (hsettings : ∀ s ∈ settings, s.Formed) :
    Plain (Line.port indent n settings).text :=
  plain_port fun s hs => ⟨(hsettings s hs).key_token, h.value_token s hs⟩

theorem Ordinary.words (h : Ordinary indent n settings) (hsettings : ∀ s ∈ settings, s.Formed) :
    Scan.words (blank (Line.port indent n settings).text) =
      portWord n :: settings.flatMap fun s => [s.key, s.value] :=
  words_port indent n fun s hs => words_setting (hsettings s hs) (h.value_token s hs)
    (h.value_ne_nil s hs) (h.value_plain s hs)

theorem Ordinary.words_cstr (h : Ordinary indent n settings)
    (hsettings : ∀ s ∈ settings, s.Formed) :
    Scan.words (blank (cstr (Line.port indent n settings).text)) =
      portWord n :: settings.flatMap fun s => [s.key, s.value] := by
  rw [cstr_eq_self fun c hc => (h.plain hsettings c hc).2, h.words hsettings]

/-- For an ordinary line it is the row of its one buffer that counts. -/
theorem Ordinary.read_iff (h : Ordinary indent n settings) (hsettings : ∀ s ∈ settings, s.Formed)
    (numbers : List Nat) :
    let rows := (row (Line.port indent n settings).text).toList
    (Line.port indent n settings).Read numbers ↔
      OwnRows n rows ∧ (rows.getLast?.map Row.text).getD [] = realName settings ∧
        (rows = [] → Beyond numbers n) := by
  intro rows
  obtain ⟨hrows, hfits⟩ := rows_of_fits (h.plain hsettings) h.fits
  have hwithin := hfits.2 (h.words hsettings ▸ h.within hsettings)
  have hread : (Line.port indent n settings).Read numbers ↔
      OwnRows n (Line.port indent n settings).rows ∧
        (Line.port indent n settings).Tells numbers :=
    and_congr_left' (and_iff_right hwithin)
  rw [hread, Line.Tells, hrows]

/-- With less than two settings there is no row. -/
theorem Ordinary.row_eq_none (h : Ordinary indent n settings)
    (hsettings : ∀ s ∈ settings, s.Formed) (hlen : settings.length < 2) :
    row (Line.port indent n settings).text = none := by
  refine row_short ?_
  rw [h.words_cstr hsettings, List.length_cons, length_keyValues]
  omega

/-- With two there is one, of the name that is found in them. -/
theorem Ordinary.exists_row {s₁ s₂ : Setting} {ss : List Setting}
    (h : Ordinary indent n (s₁ :: s₂ :: ss)) (hsettings : ∀ s ∈ s₁ :: s₂ :: ss, s.Formed) :
    ∃ r, row (Line.port indent n (s₁ :: s₂ :: ss)).text = some r ∧ r.text = foundName s₁ s₂ ∧
      (n < 50 → r.number = some (n : Int)) :=
  row_port (h.words_cstr hsettings) (hsettings s₁ List.mem_cons_self).value_le

/-- **An ordinary line is read right exactly when its settings are simple.** -/
theorem read_iff_simple (hformed : (Line.port indent n settings).Formed)
    (h : Ordinary indent n settings) (numbers : List Nat) :
    (Line.port indent n settings).Read numbers ↔ Simple numbers n settings := by
  obtain ⟨hsettings, hkeys⟩ := hformed
  refine (h.read_iff hsettings numbers).trans ?_
  by_cases hlen : settings.length < 2
  · -- Three words at most: nothing is read, and nothing may be missed.
    rw [h.row_eq_none hsettings hlen, Simple, ← realName_eq_nil_iff h.value_ne_nil]
    constructor
    · rintro ⟨-, hname, hbeyond⟩
      exact .inr ⟨hlen, hname.symm, hbeyond rfl⟩
    · rintro (⟨htwo, -⟩ | ⟨-, hname, hbeyond⟩)
      · omega
      · exact ⟨trivial, hname.symm, fun _ => hbeyond⟩
  · obtain ⟨s₁, s₂, ss, rfl⟩ : ∃ s₁ s₂ ss, settings = s₁ :: s₂ :: ss := by
      rcases settings with _ | ⟨s₁, _ | ⟨s₂, ss⟩⟩
      · exact absurd (by decide) hlen
      · exact absurd (by simp) hlen
      · exact ⟨s₁, s₂, ss, rfl⟩
    obtain ⟨r, hrow, htext, hnumber⟩ := h.exists_row hsettings
    have hname := foundName_eq_iff hkeys fun s hs => h.value_ne_nil s (by simp [hs])
    rw [hrow, Simple]
    constructor
    · rintro ⟨hown, hlast, -⟩
      obtain ⟨hn, hlt⟩ := (ownRows_singleton hnumber).1 hown
      have heq : r.text = realName (s₁ :: s₂ :: ss) := hlast
      rw [heq] at hlt
      exact .inl ⟨by simp, hn, hlt, hname.1 (htext.symm.trans heq)⟩
    · rintro (⟨-, hn, hlt, hkey⟩ | ⟨hone, -⟩)
      · have heq : r.text = realName (s₁ :: s₂ :: ss) := htext.trans (hname.2 hkey)
        rw [← heq] at hlt
        exact ⟨(ownRows_singleton hnumber).2 ⟨hn, hlt⟩, heq, fun hnil => absurd hnil (by simp)⟩
      · exact absurd hone hlen

end Settings

/-! ### Other lines -/

/-- A buffer whose first word does not begin with `CNCA` is skipped. -/
theorem row_other {buf : List Char}
    (h : ∀ w, (words (blank (cstr buf))).head? = some w → w.take 4 ≠ "CNCA".toList) :
    row buf = none := by
  rcases hwords : words (blank (cstr buf)) with _ | ⟨w₀, _ | ⟨w₁, _ | ⟨w₂, _ | ⟨w₃, _ | ⟨w₄, ws⟩⟩⟩⟩⟩
  case cons.cons.cons.cons.cons =>
    rw [row_words hwords, if_neg]
    exact h w₀ (by rw [hwords, List.head?_cons])
  all_goals exact row_short (by rw [hwords]; simp)

/-- Another line that fits one buffer has no row. -/
theorem read_other {numbers : List Nat} {text : List Char} (hformed : (Line.other text).Formed)
    (hfits : text.length ≤ 899) :
    (Line.other text).Read numbers ↔ Within szRoom (words (blank text)) := by
  obtain ⟨hnewline, hnul, hcnca⟩ := hformed
  have hplain : Plain text := fun c hc => ⟨fun heq => hnewline (heq ▸ hc), hnul c hc⟩
  have hcstr : cstr text = text := cstr_eq_self hnul
  obtain ⟨hrows, hbufs⟩ := rows_of_fits (l := .other text) hplain hfits
  have hnone : row text = none := row_other (by rwa [hcstr])
  have hnil : (Line.other text).rows = [] := by
    rw [hrows]
    exact congrArg Option.toList hnone
  exact ⟨fun h => hbufs.1 h.1.1, fun h => ⟨⟨hbufs.2 h, hnil⟩, trivial⟩⟩

/-! ### The result -/

/-- **The table of port names is right, whatever the listing, exactly when every line is read
right**; for an ordinary line of a port its settings decide that, and for a line of another
kind, if it fits one buffer, only the length of its words. -/
theorem table_right_iff (l : Listing) :
    (l.Right ↔ ∀ line ∈ l.lines, line.Read (numbers l.lines)) ∧
      (∀ indent n settings, Line.port indent n settings ∈ l.lines → Ordinary indent n settings →
        ((Line.port indent n settings).Read (numbers l.lines) ↔
          Simple (numbers l.lines) n settings)) ∧
      ∀ text, Line.other text ∈ l.lines → text.length ≤ 899 →
        ((Line.other text).Read (numbers l.lines) ↔ Within szRoom (words (blank text))) :=
  ⟨right_iff l, fun _ _ _ hline h => read_iff_simple (l.formed _ hline) h _,
    fun _ hline => read_other (l.formed _ hline)⟩

/-- A port as `setupc` lists it. -/
theorem table_right_one :
    let settings : List Setting := [⟨"PortName".toList, "COM#".toList⟩,
      ⟨"RealPortName".toList, "COM5".toList⟩]
    let l : Listing := ⟨[.port 7 0 settings],
      List.forall_mem_singleton.2 ⟨by decide, by decide⟩, by decide⟩
    l.Right := by
  intro settings l
  have hordinary : Ordinary 7 0 settings := ⟨by decide, by decide, by decide, by decide⟩
  have hsimple : Simple (numbers l.lines) 0 settings :=
    .inl ⟨by decide, by decide, by decide, by decide⟩
  obtain ⟨hright, hport, -⟩ := table_right_iff l
  refine hright.2 (List.forall_mem_singleton.2 ?_)
  exact (hport 7 0 settings (List.mem_singleton_self _) hordinary).2 hsimple

/-- A name behind two other settings is not found. -/
theorem not_table_right : ¬ ∀ l : Listing, l.Right := by
  intro h
  let settings : List Setting := [⟨"PortName".toList, "COM#".toList⟩,
    ⟨"EmuBR".toList, "yes".toList⟩, ⟨"RealPortName".toList, "COM5".toList⟩]
  let l : Listing := ⟨[.port 7 0 settings], List.forall_mem_singleton.2 ⟨by decide, by decide⟩,
    by decide⟩
  have hslot := (h l 0).1.slot 7 0 settings (List.mem_singleton_self _)
  revert hslot
  decide

end SerialServer.Main37
