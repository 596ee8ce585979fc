import SerialServer.Core.CString
import SerialServer.Core.Run
import SerialServer.Core.Stored

/-!
# SerialServer.Discovery.RealName

The parser of the port listing (`getRealName`).

The listing is read by `fgets` in buffers of at most 899 characters. In each of them the
signs `=` and `,` are made blanks and five words are asked for; if they are there, and the
first one begins with `CNCA`, the buffer is a row: it has the number behind `CNCA`, and the
fifth word or the third for a name, when `RealPortName` stands in front of it. A row sets
`pn` at its number and copies its name to the 20 bytes of its slot in `pCNCA`. Nothing
bounds the number, or the name; and a row without a number has that of the row before it.

`slot_put` and `pn_put` say what a row that stays in its slot changes.
-/

namespace SerialServer.Main37

open CString Scan

/-! ### The program -/

/-- `rmChar`. -/
def rmChar (p : List Char) (ch : Char) : List Char := p.map fun c => if c = ch then ' ' else c

/-- The signs of the listing as blanks. -/
def blank (p : List Char) : List Char := rmChar (rmChar p '=') ','

/-- The string that starts with the first of some words stored 100 bytes apart. A word that
is too long for its 100 bytes goes on with the next one. -/
def szString : List (List Char) → List Char
  | [] => []
  | [w] => w
  | w :: v :: ws => if w.length < 100 then w else w.take 100 ++ szString (v :: ws)

/-- The room for each of the five words in the 1000 bytes of `sz`. -/
def szRoom : List Nat := [1000, 900, 800, 700, 600]

/-- The five words of a buffer stay in `sz`. -/
def SzFits (buf : List Char) : Prop :=
  InBounds id (stored (szRoom.map some) (sscanf (List.replicate 5 .str) (blank (cstr buf))))

/-- What a buffer says: the number that is read, and the name that is copied. -/
structure Row where
  number : Option Int
  name : Option (List Char)
  deriving Repr, DecidableEq

/-- The row of a buffer, if it is not skipped. -/
def row (buf : List Char) : Option Row :=
  match sscanf (List.replicate 5 .str) (blank (cstr buf)) with
  | [.str w₀, .str w₁, .str w₂, .str w₃, .str w₄] =>
      -- `memcmp` and the second `sscanf` look at `sz`, not at the word.
      let sz := szString [w₀, w₁, w₂, w₃, w₄]
      if sz.take 4 = "CNCA".toList then
        some {
          number := (integer (sz.drop 4)).map Prod.fst
          name :=
            if szString [w₃, w₄] = "RealPortName".toList then some w₄
            else if szString [w₁, w₂, w₃, w₄] = "RealPortName".toList then
              some (szString [w₂, w₃, w₄])
            else none }
      else none
  | _ => none

/-- What the loop keeps: the number last read, and the two tables. -/
structure Table where
  n : Int
  pn : Int → Int
  pCNCA : Int → Char

/-- A row is entered. -/
def Table.put (t : Table) (r : Row) : Table :=
  let n := r.number.getD t.n
  let pCNCA := Function.update t.pCNCA (20 * n) nul
  { n, pn := Function.update t.pn n 1, pCNCA := (r.name.map (strcpy pCNCA (20 * n))).getD pCNCA }

/-- One turn of the loop. -/
def readBuf (t : Table) (buf : List Char) : Table :=
  match row buf with
  | some r => t.put r
  | none => t

/-- The tables before the loop, with whatever `n` was left with. What lies behind the arrays is
taken to be like what is in them. -/
def emptyTable (n : Int) : Table := ⟨n, fun _ => -1, fun _ => nul⟩

/-- The loop that numbers the entries, from `is` on. -/
def renumber (pn : Int → Int) (num : Nat) : List Nat → Nat × (Int → Int)
  | [] => (num, pn)
  | i :: is => if pn i < 0 then (num, pn) else renumber (Function.update pn i num) (num + 1) is

/-- What the caller gets. -/
structure RealNames where
  num : Nat
  pn : Int → Int
  pCNCA : Int → Char

/-- `getRealName`, when `out.txt` is there or not. -/
def getRealName (n : Int) : Option (List Char) → RealNames
  | none => ⟨0, (emptyTable n).pn, (emptyTable n).pCNCA⟩
  | some text =>
      let t := (fgets 900 [] text).foldl readBuf (emptyTable n)
      let (num, pn) := renumber t.pn 0 (List.range 50)
      ⟨num, pn, t.pCNCA⟩

/-- The name in slot `n`. -/
def slot (pCNCA : Int → Char) (n : Nat) : List Char := stringAt pCNCA (20 * n) 20

/-- The name a row leaves. -/
def Row.text (r : Row) : List Char := r.name.getD []

/-! ### The buffers -/

theorem rmChar_append (p q : List Char) (ch : Char) :
    rmChar (p ++ q) ch = rmChar p ch ++ rmChar q ch := List.map_append

theorem blank_append (p q : List Char) : blank (p ++ q) = blank p ++ blank q := by
  rw [blank, rmChar_append, rmChar_append]
  rfl

/-- A newline at the end of a buffer makes no difference. -/
theorem row_newline (buf : List Char) : row (buf ++ ['\n']) = row buf := by
  have hwords : words (blank (cstr (buf ++ ['\n']))) = words (blank (cstr buf)) := by
    rw [cstr, List.takeWhile_append]
    split
    · next hall =>
      have hcstr : cstr buf = buf := (List.takeWhile_prefix _).eq_of_length hall
      have hnewline : List.takeWhile (fun c : Char => decide (c.toNat ≠ 0)) ['\n'] = ['\n'] := by
        decide
      rw [hcstr, hnewline, blank_append]
      exact (words_append_cons (blank buf) [] (by decide)).trans (List.append_nil _)
    · rfl
  unfold row
  rw [sscanf_words, sscanf_words, hwords]

theorem readBuf_newline (t : Table) (buf : List Char) :
    readBuf t (buf ++ ['\n']) = readBuf t buf := by
  unfold readBuf
  rw [row_newline]

/-- Nor does one at the end of a line. -/
theorem readBuf_fgets_newline (t : Table) (buf l : List Char) :
    (fgets 900 buf (l ++ ['\n'])).foldl readBuf t = (fgets 900 buf l).foldl readBuf t := by
  induction l generalizing t buf with
  | nil =>
    have hbuf : (fgets 900 buf ['\n']).foldl readBuf t = readBuf t buf := by
      rw [fgets, if_pos (.inl rfl), fgets, if_pos rfl, List.foldl_cons, readBuf_newline]
      rfl
    rw [List.nil_append, hbuf, fgets]
    split
    · next hnil =>
      rw [hnil]
      rfl
    · rfl
  | cons c l ih =>
    rw [List.cons_append, fgets, fgets]
    split
    · rw [List.foldl_cons, List.foldl_cons, ih]
    · rw [ih]

/-! ### Rows -/

/-- The rows of some buffers are all that matters of them. -/
theorem foldl_readBuf (t : Table) (bufs : List (List Char)) :
    bufs.foldl readBuf t = (bufs.filterMap row).foldl Table.put t := by
  induction bufs generalizing t with
  | nil => rfl
  | cons buf bufs ih =>
    rw [List.foldl_cons, ih, List.filterMap_cons, readBuf]
    cases row buf <;> rfl

/-- A property of the rows as they are entered. -/
theorem eachStep_readBuf {C : Table → Row → Prop} (t : Table) (bufs : List (List Char)) :
    Run.EachStep readBuf (fun t buf => ∀ r ∈ row buf, C t r) t bufs ↔
      Run.EachStep Table.put C t (bufs.filterMap row) := by
  induction bufs generalizing t with
  | nil => exact Iff.rfl
  | cons buf bufs ih =>
    rw [List.filterMap_cons, Run.EachStep, readBuf]
    cases row buf with
    | none =>
      rw [ih]
      exact ⟨fun h => h.2, fun h => ⟨by simp, h⟩⟩
    | some r =>
      rw [ih]
      exact and_congr_left' (by simp)

theorem szString_cons {w : List Char} (ws : List (List Char)) (hw : w.length < 100) :
    szString (w :: ws) = w := by
  cases ws with
  | nil => rfl
  | cons v ws => exact if_pos hw

theorem take_szString (w : List Char) (ws : List (List Char)) :
    (szString (w :: ws)).take 100 = w.take 100 := by
  cases ws with
  | nil => rfl
  | cons v ws =>
    rw [szString]
    split
    · rfl
    · next hw =>
      have hlen : (w.take 100).length = 100 := by
        rw [List.length_take]
        omega
      rw [List.take_left' hlen]

/-- A short string is there when it is the first word. -/
theorem szString_eq_iff {t : List Char} (ht : t.length < 100) (w : List Char)
    (ws : List (List Char)) : szString (w :: ws) = t ↔ w = t := by
  by_cases hw : w.length < 100
  · rw [szString_cons ws hw]
  · have htake := take_szString w ws
    constructor
    · intro h
      -- The string begins with 100 characters of the first word, more than there are in `t`.
      rw [h, List.take_of_length_le (by omega)] at htake
      have hlen : t.length = 100 := by
        rw [htake, List.length_take]
        omega
      omega
    · rintro rfl
      exact absurd ht hw

theorem mem_szString {ws : List (List Char)} {c : Char} (h : c ∈ szString ws) :
    ∃ w ∈ ws, c ∈ w := by
  induction ws with
  | nil => cases h
  | cons w ws ih =>
    cases ws with
    | nil => exact ⟨w, List.mem_singleton_self w, h⟩
    | cons v ws =>
      rw [szString] at h
      split at h
      · exact ⟨w, List.mem_cons_self, h⟩
      · rcases List.mem_append.1 h with hw | hrest
        · exact ⟨w, List.mem_cons_self, List.mem_of_mem_take hw⟩
        · obtain ⟨u, hu, hc⟩ := ih hrest
          exact ⟨u, List.mem_cons_of_mem _ hu, hc⟩

theorem szFits_iff (buf : List Char) :
    SzFits buf ↔ Within szRoom (words (blank (cstr buf))) :=
  inBounds_words id szRoom (blank (cstr buf))

theorem mem_blank {p : List Char} {c : Char} (h : c ∈ blank p) : c = ' ' ∨ c ∈ p := by
  obtain ⟨d, hd, rfl⟩ := List.mem_map.1 h
  obtain ⟨e, he, rfl⟩ := List.mem_map.1 hd
  split
  · exact .inl rfl
  · split
    · exact .inl rfl
    · exact .inr he

/-- Without five words there is no row. -/
theorem row_short {buf : List Char} (h : (words (blank (cstr buf))).length < 5) :
    row buf = none := by
  unfold row
  split
  · next hscan =>
    have hlen := congrArg List.length hscan
    rw [sscanf_words, List.length_map, List.length_take, List.length_cons] at hlen
    simp only [List.length_cons, List.length_nil] at hlen
    omega
  · rfl

/-- What a buffer with five words is read as. -/
theorem row_words {buf w₀ w₁ w₂ w₃ w₄ : List Char} {ws : List (List Char)}
    (h : words (blank (cstr buf)) = w₀ :: w₁ :: w₂ :: w₃ :: w₄ :: ws) :
    row buf = if w₀.take 4 = "CNCA".toList then
      some {
        number := (integer ((szString [w₀, w₁, w₂, w₃, w₄]).drop 4)).map Prod.fst
        name :=
          if w₃ = "RealPortName".toList then some w₄
          else if w₁ = "RealPortName".toList then some (szString [w₂, w₃, w₄])
          else none }
    else none := by
  have hkey : "RealPortName".toList.length < 100 := by decide
  have hscan : sscanf (List.replicate 5 .str) (blank (cstr buf)) =
      [.str w₀, .str w₁, .str w₂, .str w₃, .str w₄] := by
    rw [sscanf_words, h]
    rfl
  have hsz : (szString [w₀, w₁, w₂, w₃, w₄]).take 4 = w₀.take 4 := by
    have htake := congrArg (List.take 4) (take_szString w₀ [w₁, w₂, w₃, w₄])
    rwa [List.take_take, List.take_take] at htake
  unfold row
  rw [hscan]
  dsimp only
  rw [hsz]
  simp only [szString_eq_iff hkey]

/-- No name has the end of a string in it. -/
theorem text_noNul {buf : List Char} {r : Row} (h : row buf = some r) : ∀ c ∈ r.text, c ≠ nul := by
  have hbuf : ∀ c ∈ blank (cstr buf), c.toNat ≠ 0 := by
    intro c hc
    rcases mem_blank hc with rfl | hc
    · decide
    · exact cstr_noNul buf c hc
  have hword : ∀ w, .str w ∈ sscanf (List.replicate 5 .str) (blank (cstr buf)) →
      ∀ c ∈ w, c ≠ nul := by
    intro w hw c hc hnul
    refine (token_of_mem_sscanf hbuf hw).1.noNul c hc ?_
    rw [hnul]
    decide
  unfold row at h
  split at h
  case h_2 => cases h
  case h_1 w₀ w₁ w₂ w₃ w₄ hscan =>
    rw [hscan] at hword
    dsimp only at h
    split at h
    case isFalse => cases h
    case isTrue =>
      obtain rfl := Option.some.inj h
      intro c hc
      rw [Row.text] at hc
      dsimp only at hc
      split at hc
      · exact hword w₄ (by simp) c hc
      · split at hc
        · obtain ⟨w, hw, hmem⟩ := mem_szString hc
          refine hword w ?_ c hmem
          simp only [List.mem_cons, List.not_mem_nil, or_false] at hw
          rcases hw with rfl | rfl | rfl <;> simp
        · cases hc

/-! ### Slots -/

theorem pCNCA_put (t : Table) (r : Row) :
    (t.put r).pCNCA = strcpy t.pCNCA (20 * r.number.getD t.n) r.text := by
  obtain ⟨number, name⟩ := r
  cases name with
  | none => rfl
  | some s => exact strcpy_update _ _ _ s

/-- A row of number `n` that stays in its slot. -/
structure Table.Stays (n : Nat) (t : Table) (r : Row) : Prop where
  number_eq : r.number.getD t.n = n
  n_lt : n < 50
  text_lt : r.text.length < 20

/-- **What a row does to the slots.** -/
theorem slot_put {n : Nat} {t : Table} {r : Row} (h : t.Stays n r) (hnul : ∀ c ∈ r.text, c ≠ nul)
    (m : Nat) : slot (t.put r).pCNCA m = if m = n then r.text else slot t.pCNCA m := by
  rw [slot, pCNCA_put, h.number_eq]
  split
  · next hm =>
    rw [hm]
    exact stringAt_strcpy hnul _ _ h.text_lt
  · next hm =>
    refine stringAt_congr fun a ha ha' => ?_
    have hlen := h.text_lt
    rcases Nat.lt_or_gt_of_ne hm with hlt | hgt
    · exact strcpy_of_lt _ (by omega)
    · exact strcpy_of_gt (by omega)

theorem pn_put {n : Nat} {t : Table} {r : Row} (h : t.Stays n r) (m : Nat) :
    (t.put r).pn m = if m = n then 1 else t.pn m := by
  have hput : (t.put r).pn = Function.update t.pn n 1 := by
    rw [← h.number_eq]
    rfl
  rw [hput, Function.update_apply]
  simp only [Int.natCast_inj]

theorem n_put {n : Nat} {t : Table} {r : Row} (h : t.Stays n r) : (t.put r).n = n := h.number_eq

/-- **Rows of one number** leave the name of the last of them in its slot, and all other slots
as they are. -/
theorem slot_rows {n : Nat} {t : Table} {rs : List Row}
    (h : Run.EachStep Table.put (Table.Stays n) t rs) (hnul : ∀ r ∈ rs, ∀ c ∈ r.text, c ≠ nul)
    (m : Nat) : slot (rs.foldl Table.put t).pCNCA m =
      if m = n then (rs.getLast?.map Row.text).getD (slot t.pCNCA n) else slot t.pCNCA m := by
  induction rs generalizing t with
  | nil =>
    split
    · next hm =>
      rw [hm]
      rfl
    · rfl
  | cons r rs ih =>
    have hr := hnul r List.mem_cons_self
    rw [List.foldl_cons, ih h.2 fun r' hr' => hnul r' (List.mem_cons_of_mem _ hr')]
    split
    · rw [slot_put h.1 hr, if_pos rfl, List.getLast?_cons]
      cases rs.getLast? <;> rfl
    · next hm => rw [slot_put h.1 hr, if_neg hm]

/-- They mark their number, and no other. -/
theorem pn_rows {n : Nat} {t : Table} {rs : List Row}
    (h : Run.EachStep Table.put (Table.Stays n) t rs) (m : Nat) :
    (rs.foldl Table.put t).pn m = if m = n ∧ rs ≠ [] then 1 else t.pn m := by
  induction rs generalizing t with
  | nil => rw [if_neg fun h => h.2 rfl, List.foldl_nil]
  | cons r rs ih =>
    rw [List.foldl_cons, ih h.2, pn_put h.1]
    by_cases hm : m = n <;> simp [hm]

/-- And they leave their number to the next one. -/
theorem n_rows {n : Nat} {t : Table} {rs : List Row}
    (h : Run.EachStep Table.put (Table.Stays n) t rs) :
    (rs.foldl Table.put t).n = if rs = [] then t.n else n := by
  induction rs generalizing t with
  | nil => rfl
  | cons r rs ih =>
    rw [List.foldl_cons, ih h.2, n_put h.1, if_neg (List.cons_ne_nil r rs), ite_self]

/-- Rows that have the number `n`, or none behind one that has, and names that fit. -/
def OwnRows (n : Nat) : List Row → Prop
  | [] => True
  | r :: rs => n < 50 ∧ r.number = some (n : Int) ∧
      ∀ r' ∈ r :: rs, r'.number.getD n = n ∧ r'.text.length < 20

/-- Once the number is `n`, a row without a number stays in its slot as well. -/
theorem stays_rows_iff {n : Nat} (hn : n < 50) {t : Table} (ht : t.n = n) (rs : List Row) :
    Run.EachStep Table.put (Table.Stays n) t rs ↔
      ∀ r ∈ rs, r.number.getD n = n ∧ r.text.length < 20 := by
  induction rs generalizing t with
  | nil => exact iff_of_true trivial (by simp)
  | cons r rs ih =>
    rw [List.forall_mem_cons]
    constructor
    · rintro ⟨hr, hrs⟩
      have hnumber := hr.number_eq
      rw [ht] at hnumber
      exact ⟨⟨hnumber, hr.text_lt⟩, (ih (n_put hr)).1 hrs⟩
    · rintro ⟨⟨hnumber, htext⟩, hrs⟩
      rw [← ht] at hnumber
      have hr : t.Stays n r := ⟨hnumber.trans ht, hn, htext⟩
      exact ⟨hr, (ih (n_put hr)).2 hrs⟩

/-- Such rows stay in slot `n`, whatever the number before them was. -/
theorem OwnRows.stays {n : Nat} {rs : List Row} (h : OwnRows n rs) (t : Table) :
    Run.EachStep Table.put (Table.Stays n) t rs := by
  cases rs with
  | nil => trivial
  | cons r rs =>
    obtain ⟨hn, hnumber, hall⟩ := h
    obtain ⟨⟨-, htext⟩, hrs⟩ := List.forall_mem_cons.1 hall
    have hr : t.Stays n r := ⟨by rw [hnumber, Option.getD_some], hn, htext⟩
    exact ⟨hr, (stays_rows_iff hn (n_put hr) rs).2 hrs⟩

/-- **No other rows do**, when the number before them was another one. -/
theorem ownRows_iff {n : Nat} {t : Table} (ht : t.n ≠ n) (rs : List Row) :
    Run.EachStep Table.put (Table.Stays n) t rs ↔ OwnRows n rs := by
  cases rs with
  | nil => exact Iff.rfl
  | cons r rs =>
    constructor
    · rintro ⟨hr, hrs⟩
      have hnumber : r.number = some (n : Int) := by
        have heq := hr.number_eq
        cases h : r.number with
        | none =>
          rw [h] at heq
          exact absurd heq ht
        | some v =>
          rw [h] at heq
          exact congrArg some heq
      refine ⟨hr.n_lt, hnumber, List.forall_mem_cons.2 ⟨⟨?_, hr.text_lt⟩, ?_⟩⟩
      · rw [hnumber, Option.getD_some]
      · exact (stays_rows_iff hr.n_lt (n_put hr) rs).1 hrs
    · intro h
      exact h.stays t

/-! ### The numbering -/

/-- `k` is where a run of numbers from 0 on ends, in a table of 50. -/
structure First (P : Nat → Prop) (k : Nat) : Prop where
  le : k ≤ 50
  below : ∀ i < k, P i
  stop : k < 50 → ¬ P k

theorem renumber_spec (pn : Int → Int) (k m : Nat) :
    let r := renumber pn k (List.range' k m)
    (k ≤ r.1 ∧ r.1 ≤ k + m ∧ (∀ i : Nat, k ≤ i → i < r.1 → 0 ≤ pn i) ∧
      (r.1 < k + m → pn r.1 < 0)) ∧
      ∀ i : Nat, r.2 i = if k ≤ i ∧ i < r.1 then (i : Int) else pn i := by
  -- `k` is the index of the loop and the count, which are the same as long as it goes on.
  induction m generalizing pn k with
  | zero =>
    intro r
    have hr : r = (k, pn) := rfl
    rw [hr]
    refine ⟨⟨Nat.le_refl k, Nat.le_refl k, fun i hi hi' => ?_, fun h => ?_⟩, fun i => ?_⟩
    · omega
    · omega
    · rw [if_neg (by omega)]
  | succ m ih =>
    intro r
    by_cases hpn : pn k < 0
    · have hr : r = (k, pn) := if_pos hpn
      rw [hr]
      refine ⟨⟨Nat.le_refl k, by omega, fun i hi hi' => ?_, fun _ => hpn⟩, fun i => ?_⟩
      · omega
      · rw [if_neg (by omega)]
    · have hr : r = renumber (Function.update pn k k) (k + 1) (List.range' (k + 1) m) :=
        if_neg hpn
      obtain ⟨⟨hle, hlt, hbelow, hstop⟩, hval⟩ := ih (Function.update pn k k) (k + 1)
      rw [← hr] at hle hlt hbelow hstop hval
      have hother : ∀ i : Nat, i ≠ k → Function.update pn (k : Int) (k : Int) i = pn i :=
        fun i hi => Function.update_of_ne (by omega) _ _
      refine ⟨⟨by omega, by omega, fun i hi hi' => ?_, fun h => ?_⟩, fun i => ?_⟩
      · rcases Nat.eq_or_lt_of_le hi with rfl | hi
        · omega
        · rw [← hother i (by omega)]
          exact hbelow i hi hi'
      · rw [← hother r.1 (by omega)]
        exact hstop (by omega)
      · rw [hval i]
        by_cases hi : i = k
        · rw [hi, Function.update_self, if_neg (by omega), if_pos (by omega)]
        · rw [hother i hi]
          congr 1
          rw [eq_iff_iff]
          omega

/-- **What the last loop does**: it counts the marked numbers from 0 on, and enters them. -/
theorem renumber_first (pn : Int → Int) :
    First (fun i => 0 ≤ pn i) (renumber pn 0 (List.range 50)).1 ∧
      ∀ i : Nat, i < (renumber pn 0 (List.range 50)).1 →
        (renumber pn 0 (List.range 50)).2 i = i := by
  obtain ⟨⟨-, hle, hbelow, hstop⟩, hval⟩ := renumber_spec pn 0 50
  rw [← List.range_eq_range'] at hle hbelow hstop hval
  rw [Nat.zero_add] at hle hstop
  refine ⟨⟨hle, fun i hi => hbelow i (Nat.zero_le i) hi, fun h => ?_⟩, fun i hi => ?_⟩
  · exact Int.not_le.2 (hstop h)
  · rw [hval i, if_pos ⟨Nat.zero_le i, hi⟩]

end SerialServer.Main37
