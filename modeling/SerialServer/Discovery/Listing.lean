import SerialServer.Discovery.RealName

/-!
# SerialServer.Discovery.Listing

The table of port names against the listing it is made from.

A listing is a file of lines; those of the ports read `CNCAn key=value,key=value,...`. The
table is right (`TableRight`) when it counts the ports from 0 to the first one that is not
listed and has the `RealPortName` of each, and no line has written outside of its slot.

Each line decides for itself whether that is so (`right_iff`): its rows are to have its own
number, the last of them its name, and if it has none it is to be a port that has no name and
is not counted anyway.
-/

namespace SerialServer.Main37

open CString Scan

/-! ### Listings -/

/-- `key=value`. -/
structure Setting where
  key : List Char
  value : List Char
  deriving Repr, DecidableEq

def Setting.text (s : Setting) : List Char := s.key ++ '=' :: s.value

/-- `key=value,key=value,...` -/
def settingsText (settings : List Setting) : List Char :=
  [','].intercalate (settings.map Setting.text)

/-- A line of the listing: that of port `n`, behind some blanks, or some other line. -/
inductive Line
  | port (indent n : Nat) (settings : List Setting)
  | other (text : List Char)

/-- `CNCAn`. -/
def portWord (n : Nat) : List Char := "CNCA".toList ++ Nat.toDigits 10 n

def Line.text : Line → List Char
  | .port indent n settings =>
      List.replicate indent ' ' ++ (portWord n ++ ' ' :: settingsText settings)
  | .other text => text

/-- The file. -/
def fileText (lines : List Line) : List Char := ['\n'].intercalate (lines.map Line.text)

/-- The ports that are listed. -/
def numbers (lines : List Line) : List Nat :=
  lines.filterMap fun
    | .port _ n _ => some n
    | .other _ => none

/-- The `RealPortName` value, if there is one. -/
def realName (settings : List Setting) : List Char :=
  ((settings.find? fun s => decide (s.key = "RealPortName".toList)).map Setting.value).getD []

/-- A setting as it can be written down, with at most 99 characters on each side. -/
structure Setting.Formed (s : Setting) : Prop where
  key_token : Token s.key
  key_ne_nil : s.key ≠ []
  key_plain : '=' ∉ s.key ∧ ',' ∉ s.key
  key_le : s.key.length ≤ 99
  value_noNul : ∀ c ∈ s.value, c.toNat ≠ 0
  value_plain : '\n' ∉ s.value ∧ ',' ∉ s.value
  value_le : s.value.length ≤ 99

instance (s : Setting) : Decidable s.Formed :=
  have : Decidable (∀ c ∈ s.value, c.toNat ≠ 0) := List.decidableBAll _ s.value
  decidable_of_iff (Token s.key ∧ s.key ≠ [] ∧ ('=' ∉ s.key ∧ ',' ∉ s.key) ∧ s.key.length ≤ 99 ∧
      (∀ c ∈ s.value, c.toNat ≠ 0) ∧ ('\n' ∉ s.value ∧ ',' ∉ s.value) ∧ s.value.length ≤ 99)
    ⟨fun ⟨h₁, h₂, h₃, h₄, h₅, h₆, h₇⟩ => ⟨h₁, h₂, h₃, h₄, h₅, h₆, h₇⟩,
      fun ⟨h₁, h₂, h₃, h₄, h₅, h₆, h₇⟩ => ⟨h₁, h₂, h₃, h₄, h₅, h₆, h₇⟩⟩

/-- A line of a text file. The line of a port has every key once, and in another line the first
word does not begin with `CNCA`. -/
def Line.Formed : Line → Prop
  | .port _ _ settings => (∀ s ∈ settings, s.Formed) ∧ (settings.map Setting.key).Nodup
  | .other text => '\n' ∉ text ∧ (∀ c ∈ text, c.toNat ≠ 0) ∧
      ∀ w, (words (blank text)).head? = some w → w.take 4 ≠ "CNCA".toList

/-- A text file that lists every port once. -/
structure Listing where
  lines : List Line
  formed : ∀ l ∈ lines, l.Formed
  distinct : (numbers lines).Nodup

def Listing.text (l : Listing) : List Char := fileText l.lines

/-! ### Right tables -/

/-- What a line is allowed to write: its name in its slot. -/
def Line.Owns (t : Table) (r : Row) : Line → Prop
  | .port _ n _ => t.Stays n r
  | .other _ => False

/-- The line is read. -/
def readLine (t : Table) (l : Line) : Table := (fgets 900 [] l.text).foldl readBuf t

/-- No buffer of the line writes outside of `sz`, of its slot or of `pn`. -/
def Line.Stays (t : Table) (l : Line) : Prop :=
  (∀ buf ∈ fgets 900 [] l.text, SzFits buf) ∧
    Run.EachStep readBuf (fun t buf => ∀ r ∈ row buf, l.Owns t r) t (fgets 900 [] l.text)

/-- The table is what the listing says. -/
structure TableRight (lines : List Line) (names : RealNames) : Prop where
  num : First (· ∈ numbers lines) names.num
  pn : ∀ i : Nat, i < names.num → names.pn i = i
  slot : ∀ indent n settings, Line.port indent n settings ∈ lines →
    slot names.pCNCA n = realName settings

/-- The table is right, whatever `n` starts with, and no line writes outside of its place. -/
def Listing.Right (l : Listing) : Prop :=
  ∀ n : Int, TableRight l.lines (getRealName n (some l.text)) ∧
    Run.EachStep readLine Line.Stays (emptyTable n) l.lines

/-! ### Lines that are read right -/

/-- The rows of a line. -/
def Line.rows (l : Line) : List Row := (fgets 900 [] l.text).filterMap row

/-- The words of each buffer fit `sz`, and each row is one of the line's own. -/
def Line.Keeps (l : Line) : Prop :=
  (∀ buf ∈ fgets 900 [] l.text, Within szRoom (words (blank (cstr buf)))) ∧
    match l with
    | .port _ n _ => OwnRows n l.rows
    | .other _ => l.rows = []

/-- A port that is not counted anyway: the table ends before it, or a port before it is not
listed. -/
def Beyond (numbers : List Nat) (n : Nat) : Prop := 50 ≤ n ∨ ∃ m < n, m ∉ numbers

/-- The last row of a port has its name, or there is none and no need for one. -/
def Line.Tells (numbers : List Nat) (l : Line) : Prop :=
  match l with
  | .port _ n settings =>
      (l.rows.getLast?.map Row.text).getD [] = realName settings ∧ (l.rows = [] → Beyond numbers n)
  | .other _ => True

/-- A line that is read right. -/
def Line.Read (numbers : List Nat) (l : Line) : Prop := l.Keeps ∧ l.Tells numbers

theorem foldl_readLine (t : Table) (lines : List Line) :
    (fgets 900 [] (fileText lines)).foldl readBuf t = lines.foldl readLine t := by
  induction lines generalizing t with
  | nil => rfl
  | cons l ls ih =>
    cases ls with
    | nil => simp [fileText, List.intercalate, readLine]
    | cons l' ls =>
      have htext : fileText (l :: l' :: ls) = l.text ++ '\n' :: fileText (l' :: ls) := by
        simp [fileText, List.intercalate]
      rw [htext, fgets_newline, List.foldl_append, readBuf_fgets_newline, ih]
      rfl

theorem readLine_eq (t : Table) (l : Line) : readLine t l = l.rows.foldl Table.put t :=
  foldl_readBuf t _

theorem rows_noNul (l : Line) : ∀ r ∈ l.rows, ∀ c ∈ r.text, c ≠ nul := by
  intro r hr
  obtain ⟨buf, -, hrow⟩ := List.mem_filterMap.1 hr
  exact text_noNul hrow

theorem stays_iff (t : Table) (l : Line) : l.Stays t ↔
    (∀ buf ∈ fgets 900 [] l.text, Within szRoom (words (blank (cstr buf)))) ∧
      Run.EachStep Table.put (fun t r => l.Owns t r) t l.rows := by
  have hfits : (∀ buf ∈ fgets 900 [] l.text, SzFits buf) ↔
      ∀ buf ∈ fgets 900 [] l.text, Within szRoom (words (blank (cstr buf))) :=
    forall₂_congr fun buf _ => szFits_iff buf
  exact and_congr hfits (eachStep_readBuf t _)

/-- **A line stays in its place exactly when it keeps to its own rows**, if the number before
them was another one. -/
theorem stays_iff_keeps {t : Table} {l : Line} (ht : ∀ n ∈ numbers [l], t.n ≠ n) :
    l.Stays t ↔ l.Keeps := by
  rw [stays_iff]
  refine and_congr_right fun _ => ?_
  cases l with
  | port indent n settings => exact ownRows_iff (ht n (by simp [numbers])) _
  | other text =>
    cases hrows : (Line.other text).rows with
    | nil => exact iff_of_true trivial rfl
    | cons r rs => exact iff_of_false (fun h => h.1) (by simp)

theorem Line.Keeps.stays {l : Line} (h : l.Keeps) (t : Table) : l.Stays t := by
  rw [stays_iff]
  refine ⟨h.1, ?_⟩
  cases l with
  | port indent n settings => exact OwnRows.stays h.2 t
  | other text =>
    have hrows : (Line.other text).rows = [] := h.2
    rw [hrows]
    trivial

/-! ### The whole file -/

@[simp] theorem numbers_port (indent n : Nat) (settings : List Setting) (lines : List Line) :
    numbers (.port indent n settings :: lines) = n :: numbers lines := rfl

@[simp] theorem numbers_other (text : List Char) (lines : List Line) :
    numbers (.other text :: lines) = numbers lines := rfl

theorem numbers_cons (l : Line) (ls : List Line) :
    numbers (l :: ls) = numbers [l] ++ numbers ls := by
  cases l <;> rfl

theorem mem_numbers {lines : List Line} {n : Nat} :
    n ∈ numbers lines ↔ ∃ indent settings, Line.port indent n settings ∈ lines := by
  induction lines with
  | nil => simp [numbers]
  | cons l ls ih =>
    cases l with
    | port indent m settings =>
      rw [numbers_port, List.mem_cons, ih]
      constructor
      · rintro (rfl | ⟨i, ss, h⟩)
        · exact ⟨indent, settings, List.mem_cons_self⟩
        · exact ⟨i, ss, List.mem_cons_of_mem _ h⟩
      · rintro ⟨i, ss, h⟩
        rcases List.mem_cons.1 h with heq | h
        · exact .inl (Line.port.inj heq).2.1
        · exact .inr ⟨i, ss, h⟩
    | other text =>
      rw [numbers_other, ih]
      simp

/-- A line that is no port's changes nothing. -/
theorem readLine_other {text : List Char} (h : (Line.other text).Keeps) (t : Table) :
    readLine t (.other text) = t := by
  have hrows : (Line.other text).rows = [] := h.2
  rw [readLine_eq, hrows, List.foldl_nil]

/-- The number a line leaves is its own, or the one before. -/
theorem n_readLine {l : Line} (h : l.Keeps) (t : Table) :
    (readLine t l).n = t.n ∨ ∃ n ∈ numbers [l], (readLine t l).n = n := by
  cases l with
  | port indent n settings =>
    rw [readLine_eq, n_rows (OwnRows.stays h.2 t)]
    split
    · exact .inl rfl
    · exact .inr ⟨n, List.mem_singleton_self n, rfl⟩
  | other text => exact .inl (by rw [readLine_other h])

/-- **All lines stay in their places exactly when each one keeps to its own rows.** -/
theorem eachStep_stays_iff {t : Table} {lines : List Line} (ht : ∀ n ∈ numbers lines, t.n ≠ n)
    (hd : (numbers lines).Nodup) :
    Run.EachStep readLine Line.Stays t lines ↔ ∀ l ∈ lines, l.Keeps := by
  -- The number a line leaves is not one of a later line, so the rule for one line applies again.
  induction lines generalizing t with
  | nil => exact iff_of_true trivial (by simp)
  | cons l ls ih =>
    rw [numbers_cons] at ht hd
    obtain ⟨-, hd', hdisj⟩ := List.nodup_append.1 hd
    have hl : l.Stays t ↔ l.Keeps := stays_iff_keeps fun n hn => ht n (List.mem_append_left _ hn)
    have hnext (hkeeps : l.Keeps) : ∀ n ∈ numbers ls, (readLine t l).n ≠ n := by
      intro n hn
      rcases n_readLine hkeeps t with heq | ⟨m, hm, heq⟩
      · rw [heq]
        exact ht n (List.mem_append_right _ hn)
      · rw [heq]
        exact fun h => hdisj m hm n hn (Int.natCast_inj.1 h)
    rw [List.forall_mem_cons]
    constructor
    · rintro ⟨hstays, hrest⟩
      have hkeeps := hl.1 hstays
      exact ⟨hkeeps, (ih (hnext hkeeps) hd').1 hrest⟩
    · rintro ⟨hkeeps, hrest⟩
      exact ⟨hl.2 hkeeps, (ih (hnext hkeeps) hd').2 hrest⟩

theorem eachStep_stays {lines : List Line} (h : ∀ l ∈ lines, l.Keeps) (t : Table) :
    Run.EachStep readLine Line.Stays t lines := by
  induction lines generalizing t with
  | nil => trivial
  | cons l ls ih =>
    rw [List.forall_mem_cons] at h
    exact ⟨h.1.stays t, ih h.2 _⟩

/-- A line leaves the other numbers alone. -/
theorem frame_readLine {l : Line} (h : l.Keeps) (t : Table) {n : Nat} (hn : n ∉ numbers [l]) :
    slot (readLine t l).pCNCA n = slot t.pCNCA n ∧ (readLine t l).pn n = t.pn n := by
  cases l with
  | port indent m settings =>
    have hne : n ≠ m := fun h => hn (by simp [h])
    have hrows := OwnRows.stays h.2 t
    rw [readLine_eq, slot_rows hrows (rows_noNul _), pn_rows hrows, if_neg hne]
    exact ⟨rfl, if_neg fun h => hne h.1⟩
  | other text =>
    rw [readLine_other h]
    exact ⟨rfl, rfl⟩

/-- Its own number gets the name of its last row. -/
theorem own_readLine {indent n : Nat} {settings : List Setting}
    (h : (Line.port indent n settings).Keeps) (t : Table) :
    let l := Line.port indent n settings
    slot (readLine t l).pCNCA n = (l.rows.getLast?.map Row.text).getD (slot t.pCNCA n) ∧
      (readLine t l).pn n = if l.rows = [] then t.pn n else 1 := by
  intro l
  have hrows := OwnRows.stays h.2 t
  rw [readLine_eq, slot_rows hrows (rows_noNul _), pn_rows hrows, if_pos rfl]
  refine ⟨rfl, ?_⟩
  by_cases hnil : l.rows = [] <;> simp [l, hnil]

/-- What the lines leave at a number nobody has. -/
theorem unlisted_readLines {lines : List Line} (h : ∀ l ∈ lines, l.Keeps) (t : Table) {n : Nat}
    (hn : n ∉ numbers lines) :
    slot (lines.foldl readLine t).pCNCA n = slot t.pCNCA n ∧
      (lines.foldl readLine t).pn n = t.pn n := by
  induction lines generalizing t with
  | nil => exact ⟨rfl, rfl⟩
  | cons l ls ih =>
    rw [List.forall_mem_cons] at h
    rw [numbers_cons, List.mem_append, not_or] at hn
    obtain ⟨hslot, hpn⟩ := frame_readLine h.1 t hn.1
    rw [List.foldl_cons, ← hslot, ← hpn]
    exact ih h.2 (readLine t l) hn.2

/-- **What the lines leave at the number of one of them**: the name of its last row. -/
theorem listed_readLines {lines : List Line} (h : ∀ l ∈ lines, l.Keeps)
    (hd : (numbers lines).Nodup) (t : Table) {indent n : Nat} {settings : List Setting}
    (hl : Line.port indent n settings ∈ lines) :
    let l := Line.port indent n settings
    slot (lines.foldl readLine t).pCNCA n =
        (l.rows.getLast?.map Row.text).getD (slot t.pCNCA n) ∧
      (lines.foldl readLine t).pn n = if l.rows = [] then t.pn n else 1 := by
  intro l
  induction lines generalizing t with
  | nil => cases hl
  | cons l' ls ih =>
    rw [List.forall_mem_cons] at h
    rw [numbers_cons] at hd
    obtain ⟨-, hd', hdisj⟩ := List.nodup_append.1 hd
    rw [List.foldl_cons]
    rcases List.mem_cons.1 hl with rfl | hmem
    · obtain ⟨hslot, hpn⟩ := own_readLine h.1 t
      rw [← hslot, ← hpn]
      exact unlisted_readLines h.2 _ fun hn => hdisj n (by simp) n hn rfl
    · have hn : n ∉ numbers [l'] := fun hn =>
        hdisj n hn n (mem_numbers.2 ⟨indent, settings, hmem⟩) rfl
      obtain ⟨hslot, hpn⟩ := frame_readLine h.1 t hn
      rw [← hslot, ← hpn]
      exact ih h.2 hd' (readLine t l') hmem

/-! ### The table -/

/-- What comes out of the lines. -/
theorem getRealName_eq (n : Int) (lines : List Line) :
    let t := lines.foldl readLine (emptyTable n)
    let r := renumber t.pn 0 (List.range 50)
    getRealName n (some (fileText lines)) = ⟨r.1, r.2, t.pCNCA⟩ := by
  rw [getRealName, foldl_readLine]

/-- A port is marked when there is a row for it. -/
theorem marked_iff {lines : List Line} (h : ∀ l ∈ lines, l.Keeps) (hd : (numbers lines).Nodup)
    (n₀ : Int) {indent n : Nat} {settings : List Setting}
    (hl : Line.port indent n settings ∈ lines) :
    0 ≤ (lines.foldl readLine (emptyTable n₀)).pn n ↔
      (Line.port indent n settings).rows ≠ [] := by
  rw [(listed_readLines h hd (emptyTable n₀) hl).2]
  split
  · next hrows => exact iff_of_false (by simp [emptyTable]) (not_not.2 hrows)
  · next hrows => exact iff_of_true (by decide) hrows

theorem listed_of_marked {lines : List Line} (h : ∀ l ∈ lines, l.Keeps) {n₀ : Int} {n : Nat}
    (hn : 0 ≤ (lines.foldl readLine (emptyTable n₀)).pn n) : n ∈ numbers lines := by
  by_contra hlisted
  rw [(unlisted_readLines h (emptyTable n₀) hlisted).2] at hn
  simp [emptyTable] at hn

/-- The name of a port is that of its last row. -/
theorem slot_listed {lines : List Line} (h : ∀ l ∈ lines, l.Keeps) (hd : (numbers lines).Nodup)
    (n₀ : Int) {indent n : Nat} {settings : List Setting}
    (hl : Line.port indent n settings ∈ lines) :
    slot (lines.foldl readLine (emptyTable n₀)).pCNCA n =
      ((Line.port indent n settings).rows.getLast?.map Row.text).getD [] :=
  (listed_readLines h hd (emptyTable n₀) hl).1

/-- **When all lines keep to their own rows, the table is right exactly when the rows say
what the lines say.** -/
theorem tableRight_iff_tells {lines : List Line} (h : ∀ l ∈ lines, l.Keeps)
    (hd : (numbers lines).Nodup) (n₀ : Int) :
    TableRight lines (getRealName n₀ (some (fileText lines))) ↔
      ∀ l ∈ lines, l.Tells (numbers lines) := by
  rw [getRealName_eq]
  obtain ⟨hfirst, hpn⟩ := renumber_first (lines.foldl readLine (emptyTable n₀)).pn
  constructor
  · rintro ⟨hnum, -, hslot⟩ l hl
    cases l with
    | other text => trivial
    | port indent n settings =>
      refine ⟨(slot_listed h hd n₀ hl).symm.trans (hslot indent n settings hl), fun hrows => ?_⟩
      have hmem : n ∈ numbers lines := mem_numbers.2 ⟨indent, settings, hl⟩
      have hnot := mt (marked_iff h hd n₀ hl).1 (not_not.2 hrows)
      by_contra hb
      obtain ⟨hn, hbefore⟩ := not_or.1 hb
      -- The count ends at `n` or before it, and there is no gap before it.
      have hle := Nat.le_of_not_lt fun hlt => hnot (hfirst.below n hlt)
      have hstop := hnum.stop (Nat.lt_of_le_of_lt hle (Nat.not_le.1 hn))
      rcases Nat.lt_or_eq_of_le hle with hlt | heq
      · exact hbefore ⟨_, hlt, hstop⟩
      · rw [← heq] at hmem
        exact hstop hmem
  · intro htells
    have hbelow : ∀ i < (renumber (lines.foldl readLine (emptyTable n₀)).pn 0 (List.range 50)).1,
        i ∈ numbers lines := fun i hi => listed_of_marked h (hfirst.below i hi)
    refine ⟨⟨hfirst.le, hbelow, fun hlt hmem => ?_⟩, hpn, fun indent n settings hl => ?_⟩
    · obtain ⟨indent, settings, hl⟩ := mem_numbers.1 hmem
      have hrows := not_not.1 (mt (marked_iff h hd n₀ hl).2 (hfirst.stop hlt))
      rcases (htells _ hl).2 hrows with hge | ⟨m, hm, hlisted⟩
      · omega
      · exact hlisted (hbelow m hm)
    · exact (slot_listed h hd n₀ hl).trans (htells _ hl).1

/-- **The table is right exactly when every line is read right.** -/
theorem right_iff (l : Listing) : l.Right ↔ ∀ line ∈ l.lines, line.Read (numbers l.lines) := by
  constructor
  · intro h
    -- `n` may start with a value that no port has for its number.
    have hn : ∀ n ∈ numbers l.lines, (emptyTable (-1)).n ≠ n := by
      intro n _ heq
      have hneg : (-1 : Int) = n := heq
      omega
    have hkeeps := (eachStep_stays_iff hn l.distinct).1 (h (-1)).2
    have htells := (tableRight_iff_tells hkeeps l.distinct (-1)).1 (h (-1)).1
    exact fun line hline => ⟨hkeeps line hline, htells line hline⟩
  · intro h n
    have hkeeps : ∀ line ∈ l.lines, line.Keeps := fun line hline => (h line hline).1
    exact ⟨(tableRight_iff_tells hkeeps l.distinct n).2 fun line hline => (h line hline).2,
      eachStep_stays hkeeps _⟩

end SerialServer.Main37
