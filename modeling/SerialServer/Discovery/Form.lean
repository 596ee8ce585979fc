import SerialServer.Core.Hex

/-!
# SerialServer.Discovery.Form

The forms of the embedded web server (`mongoose37xp.c`).

`mgRead` takes the body of a request from what has come with its head and from the socket, as
far as the buffer goes. `mgGetVar` looks for a name at the start of the body or behind a `&`,
and decodes what stands between its `=` and the next `&`. A decoded value is never longer than
its source (`length_urlDecode_le`), and the values of two names have different parts of the
body for a source (`Variable.lt`), so what bounds the body bounds both of them together.
-/

namespace SerialServer.Mongoose

open Scan

/-! ### The program -/

/-- A connection, as far as the body of its request goes. -/
structure Connection where
  /-- What the head says of the length of the body, or -1. -/
  contentLen : Int
  consumedContent : Int
  /-- What has come with the head and is not consumed. -/
  buffered : List Char
  /-- What the next calls of `recv` get; an error is `none`. -/
  recv : List (Option (List Char))

/-- The loop of `mg_read`: what it returns, and what is in the buffer. -/
def pullAll : Nat → List Char → List (Option (List Char)) → Int × List Char
  | _, buf, [] => (buf.length, buf)
  | len, buf, n :: recv =>
      if len = 0 then (buf.length, buf)
      else match n with
        | none => (-1, buf)
        | some bs =>
            let bs := bs.take len
            if bs = [] then (buf.length, buf) else pullAll (len - bs.length) (buf ++ bs) recv

/-- `mg_read`. -/
def mgRead (conn : Connection) (len : Nat) : Int × List Char :=
  if conn.consumedContent < conn.contentLen then
    let len := min (conn.contentLen - conn.consumedContent).toNat len
    let body := conn.buffered.take len
    pullAll (len - body.length) body conn.recv
  else (0, [])

/-- The loop of `url_decode`, from `i` on: what is written, and `i` behind the loop. -/
def decodeFrom (src : Nat → Char) (srcLen : Nat) (isFormUrlEncoded : Bool) :
    Nat → Nat → List Char × Nat
  | 0, i => ([], i)
  | room + 1, i =>
      if i < srcLen then
        -- The digits are looked for behind `srcLen` as well.
        if src i = '%' ∧ isXDigit (src (i + 1)) ∧ isXDigit (src (i + 2)) then
          let (dst, i') := decodeFrom src srcLen isFormUrlEncoded room (i + 3)
          (Char.ofNat (xdigit (src (i + 1)) <<< 4 ||| xdigit (src (i + 2))) :: dst, i')
        else
          let (dst, i') := decodeFrom src srcLen isFormUrlEncoded room (i + 1)
          ((if isFormUrlEncoded ∧ src i = '+' then ' ' else src i) :: dst, i')
      else ([], i)

/-- `url_decode`: what is in `dst`, and what is returned. -/
def urlDecode (src : Nat → Char) (srcLen dstLen : Nat) (isFormUrlEncoded : Bool) :
    List Char × Int :=
  let (dst, i) := decodeFrom src srcLen isFormUrlEncoded (dstLen - 1) 0
  (dst, if srcLen ≤ i then dst.length else -1)

/-- `mg_strncasecmp`, for as many characters as the name has. -/
def mgStrncasecmp : List Char → (Nat → Char) → Int
  | [], _ => 0
  | c :: cs, s =>
      let diff : Int := c.toLower.toNat - (s 0).toLower.toNat
      if diff = 0 then mgStrncasecmp cs fun i => s (i + 1) else diff

/-- The name stands at `p`, with its `=`. -/
def NamedAt (data : Nat → Char) (name : List Char) (p : Nat) : Prop :=
  (p = 0 ∨ data (p - 1) = '&') ∧ data (p + name.length) = '=' ∧
    mgStrncasecmp name (fun i => data (p + i)) = 0

instance (data : Nat → Char) (name : List Char) : DecidablePred (NamedAt data name) :=
  fun _ => inferInstanceAs (Decidable (_ ∧ _ ∧ _))

/-- `memchr` for a `&`, or the end. -/
def valueLen (s : Nat → Char) (n : Nat) : Nat :=
  ((List.range n).find? fun i => s i = '&').getD n

/-- `mg_get_var`: what is in `dst`, and what is returned. -/
def mgGetVar (data : Nat → Char) (dataLen : Int) (name : List Char) (dstLen : Nat) :
    List Char × Int :=
  if dstLen = 0 then ([], -2)
  else if dataLen = 0 then ([], -1)
  else
    -- With a length of -1 the end lies in front of the data, and the loop is not entered.
    match (List.range (dataLen.toNat - name.length)).find? fun p => NamedAt data name p with
    | none => ([], -1)
    | some p =>
        let p := p + name.length + 1
        let s : Nat → Char := fun i => data (p + i)
        let (dst, len) := urlDecode s (valueLen s (dataLen.toNat - p)) dstLen true
        (dst, if len = -1 then -2 else len)

/-! ### Reading -/

theorem pullAll_le (len : Nat) (buf : List Char) (recv : List (Option (List Char))) :
    (pullAll len buf recv).1 ≤ buf.length + len := by
  induction recv generalizing len buf with
  | nil =>
    unfold pullAll
    omega
  | cons n recv ih =>
    unfold pullAll
    split
    · omega
    cases n with
    | none =>
      dsimp only
      omega
    | some bs =>
      dsimp only
      split
      · omega
      · have hrest := ih (len - (bs.take len).length) (buf ++ bs.take len)
        have htake := List.length_take_le len bs
        rw [List.length_append] at hrest
        omega

/-- `mg_read` does not read more than there is room for. -/
theorem mgRead_le (conn : Connection) (len : Nat) : (mgRead conn len).1 ≤ len := by
  unfold mgRead
  split
  · dsimp only
    generalize hm : min (conn.contentLen - conn.consumedContent).toNat len = m
    have hbody := List.length_take_le m conn.buffered
    have hpull := pullAll_le (m - (conn.buffered.take m).length) (conn.buffered.take m) conn.recv
    omega
  · exact Int.natCast_nonneg len

/-- A body that has come with its head, and has room, is read as it is. -/
theorem mgRead_buffered {body : List Char} {len : Nat} (h : body.length ≤ len) :
    mgRead ⟨body.length, 0, body, []⟩ len = ((body.length : Int), body) := by
  unfold mgRead
  dsimp only
  split
  · have hmin : min ((body.length : Int) - 0).toNat len = body.length := by omega
    rw [hmin, List.take_length, pullAll]
  · have hnil : body = [] := List.length_eq_zero_iff.1 (by omega)
    rw [hnil]
    rfl

/-! ### Decoding -/

theorem length_decodeFrom_le (src : Nat → Char) (srcLen : Nat) (isForm : Bool) (room i : Nat) :
    (decodeFrom src srcLen isForm room i).1.length ≤ room ∧
      (decodeFrom src srcLen isForm room i).1.length ≤ srcLen - i := by
  induction room generalizing i with
  | zero => exact ⟨Nat.le_refl 0, Nat.zero_le _⟩
  | succ room ih =>
    rw [decodeFrom]
    split
    · split
      · have hrest := ih (i + 3)
        dsimp only
        rw [List.length_cons]
        omega
      · have hrest := ih (i + 1)
        dsimp only
        rw [List.length_cons]
        omega
    · exact ⟨Nat.zero_le _, Nat.zero_le _⟩

/-- **What is decoded** has room, and is no longer than its source. -/
theorem length_urlDecode_le (src : Nat → Char) (srcLen dstLen : Nat) (isForm : Bool) :
    (urlDecode src srcLen dstLen isForm).1.length ≤ dstLen - 1 ∧
      (urlDecode src srcLen dstLen isForm).1.length ≤ srcLen :=
  length_decodeFrom_le src srcLen isForm (dstLen - 1) 0

/-! ### Variables -/

/-- The first `n` characters have a variable at `p`, with a value of `k` characters. -/
structure Variable (data : Nat → Char) (n : Int) (name : List Char) (p k : Nat) : Prop where
  named : NamedAt data name p
  le : (p + name.length + 1 + k : Nat) ≤ n
  value : ∀ j < k, data (p + name.length + 1 + j) ≠ '&'

theorem valueLen_spec (s : Nat → Char) (n : Nat) :
    valueLen s n ≤ n ∧ ∀ j < valueLen s n, s j ≠ '&' := by
  unfold valueLen
  cases hfind : (List.range n).find? fun i => s i = '&' with
  | none =>
    refine ⟨Nat.le_refl n, fun j hj => ?_⟩
    have hnone := List.find?_eq_none.1 hfind j (List.mem_range.2 hj)
    exact of_decide_eq_false (Bool.eq_false_iff.2 hnone)
  | some i =>
    rw [List.find?_range_eq_some] at hfind
    obtain ⟨-, hi, hbefore⟩ := hfind
    refine ⟨Nat.le_of_lt (List.mem_range.1 hi), fun j hj => ?_⟩
    have hnot := hbefore j hj
    rw [Bool.not_eq_true'] at hnot
    exact of_decide_eq_false hnot

/-- **What `mg_get_var` gives** is nothing, or made from the value of a variable. -/
theorem mgGetVar_spec (data : Nat → Char) (n : Int) (name : List Char) (dstLen : Nat) :
    (mgGetVar data n name dstLen).1 = [] ∨
      ∃ p k, Variable data n name p k ∧ (mgGetVar data n name dstLen).1.length ≤ k := by
  unfold mgGetVar
  split
  · exact .inl rfl
  split
  · exact .inl rfl
  cases hfind : (List.range (n.toNat - name.length)).find? fun p => NamedAt data name p with
  | none => exact .inl rfl
  | some p =>
    right
    have hnamed : NamedAt data name p := by simpa using List.find?_some hfind
    have hp := List.mem_range.1 (List.mem_of_find?_eq_some hfind)
    obtain ⟨hle, hvalue⟩ :=
      valueLen_spec (fun i => data (p + name.length + 1 + i)) (n.toNat - (p + name.length + 1))
    exact ⟨p, _, ⟨hnamed, by omega, hvalue⟩, (length_urlDecode_le _ _ dstLen true).2⟩

/-- A name that is found is there up to the case of its letters. -/
theorem toLower_of_mgStrncasecmp {name : List Char} {s : Nat → Char}
    (h : mgStrncasecmp name s = 0) {i : Nat} {c : Char} (hc : name[i]? = some c) :
    (s i).toLower = c.toLower := by
  induction name generalizing s i with
  | nil => cases hc
  | cons d name ih =>
    rw [mgStrncasecmp] at h
    split at h
    · next hdiff =>
      cases i with
      | zero =>
        obtain rfl := Option.some.inj hc
        exact Char.toNat_inj.1 (by omega)
      | succ i => exact ih h hc
    · next hdiff => exact absurd h hdiff

/-- **Variables do not overlap**: one that stands behind another stands behind its value. -/
theorem Variable.lt {data : Nat → Char} {n : Int} {name name' : List Char} {p k p' k' : Nat}
    (h : Variable data n name p k) (h' : Variable data n name' p' k')
    (hname : ∀ c ∈ name, c.toLower ≠ '&') (hp : p < p') : p + name.length + 1 + k < p' := by
  obtain ⟨-, heq, hcmp⟩ := h.named
  have hamp : data (p' - 1) = '&' := h'.named.1.resolve_left (by omega)
  -- The `&` in front of the second name is not in the first one, nor its `=`, nor in its value.
  by_contra hle
  rcases Nat.lt_trichotomy (p' - 1) (p + name.length) with hlt | hat | hgt
  · have hi : p' - 1 - p < name.length := by omega
    have hlower := toLower_of_mgStrncasecmp hcmp (List.getElem?_eq_getElem hi)
    rw [show p + (p' - 1 - p) = p' - 1 by omega, hamp] at hlower
    exact hname _ (List.getElem_mem hi) hlower.symm
  · rw [← hat, hamp] at heq
    exact absurd heq (by decide)
  · refine h.value (p' - 1 - (p + name.length + 1)) (by omega) ?_
    rw [show p + name.length + 1 + (p' - 1 - (p + name.length + 1)) = p' - 1 by omega]
    exact hamp

/-- Different names do not stand at the same place. -/
theorem Variable.ne {data : Nat → Char} {n : Int} {name name' : List Char} {p k p' k' : Nat}
    (h : Variable data n name p k) (h' : Variable data n name' p' k') {i : Nat} {c c' : Char}
    (hc : name[i]? = some c) (hc' : name'[i]? = some c') (hne : c.toLower ≠ c'.toLower) :
    p ≠ p' := by
  rintro rfl
  have hlower := toLower_of_mgStrncasecmp h.named.2.2 hc
  have hlower' := toLower_of_mgStrncasecmp h'.named.2.2 hc'
  exact hne (hlower.symm.trans hlower')

/-- A name that is not at the start is nowhere, when there is no `&`. -/
theorem mgGetVar_absent {data : Nat → Char} {n : Int} {name : List Char} {i : Nat} {c : Char}
    (hc : name[i]? = some c) (hstart : (data i).toLower ≠ c.toLower)
    (hamp : ∀ j : Nat, (j : Int) < n → data j ≠ '&') (dstLen : Nat) :
    (mgGetVar data n name dstLen).1 = [] := by
  refine (mgGetVar_spec data n name dstLen).resolve_right ?_
  rintro ⟨p, k, hvar, -⟩
  have hle := hvar.le
  rcases hvar.named.1 with rfl | hbefore
  · have hlower := toLower_of_mgStrncasecmp hvar.named.2.2 hc
    rw [Nat.zero_add] at hlower
    exact hstart hlower
  · exact hamp (p - 1) (by omega) hbefore

/-! ### A form with one variable -/

/-- What stands for itself in a form. -/
def Plain (c : Char) : Prop := c ≠ '%' ∧ c ≠ '+' ∧ c ≠ '&'

instance : DecidablePred Plain := fun _ => inferInstanceAs (Decidable (_ ∧ _ ∧ _))

theorem decodeFrom_plain {src : Nat → Char} {srcLen : Nat} (hsrc : ∀ j < srcLen, Plain (src j))
    {room i : Nat} (hi : i ≤ srcLen) (hroom : srcLen ≤ i + room) :
    decodeFrom src srcLen true room i = ((List.range' i (srcLen - i)).map src, srcLen) := by
  induction room generalizing i with
  | zero =>
    obtain rfl : i = srcLen := by omega
    rw [decodeFrom, Nat.sub_self]
    rfl
  | succ room ih =>
    rw [decodeFrom]
    split
    · next hlt =>
      obtain ⟨hpercent, hplus, -⟩ := hsrc i hlt
      obtain ⟨m, hm⟩ : ∃ m, srcLen - i = m + 1 := ⟨srcLen - i - 1, by omega⟩
      have hm' : srcLen - (i + 1) = m := by omega
      rw [if_neg fun h => hpercent h.1, ih (by omega) (by omega), if_neg fun h => hplus h.2, hm,
        hm', List.range'_succ, List.map_cons]
    · next hge =>
      obtain rfl : i = srcLen := by omega
      rw [Nat.sub_self]
      rfl

/-- A text that stands for itself is decoded to itself. -/
theorem urlDecode_plain {v : List Char} {src : Nat → Char} {dstLen : Nat}
    (hsrc : ∀ j c, v[j]? = some c → src j = c) (hv : ∀ c ∈ v, Plain c) (hlen : v.length < dstLen) :
    urlDecode src v.length dstLen true = (v, (v.length : Int)) := by
  have hget : ∀ j (hj : j < v.length), src j = v[j] := fun j hj =>
    hsrc j _ (List.getElem?_eq_getElem hj)
  have hplain : ∀ j < v.length, Plain (src j) := by
    intro j hj
    rw [hget j hj]
    exact hv _ (List.getElem_mem hj)
  have hvalues : (List.range' 0 v.length).map src = v := by
    refine List.ext_getElem (by rw [List.length_map, List.length_range']) fun j _ hj => ?_
    rw [List.getElem_map, List.getElem_range', Nat.one_mul, Nat.zero_add, hget j hj]
  rw [urlDecode, decodeFrom_plain hplain (Nat.zero_le _) (by omega), Nat.sub_zero, hvalues]
  exact congrArg (Prod.mk v) (if_pos (Nat.le_refl _))

/-- A value without a `&` goes on to the end. -/
theorem valueLen_eq {s : Nat → Char} {n : Nat} (h : ∀ j < n, s j ≠ '&') : valueLen s n = n := by
  rw [valueLen, List.find?_eq_none.2]
  · rfl
  · intro j hj
    exact Bool.eq_false_iff.1 (decide_eq_false (h j (List.mem_range.1 hj)))

theorem mgStrncasecmp_self {name : List Char} {s : Nat → Char}
    (h : ∀ i c, name[i]? = some c → s i = c) : mgStrncasecmp name s = 0 := by
  induction name generalizing s with
  | nil => rfl
  | cons c name ih =>
    rw [mgStrncasecmp, h 0 c rfl, if_pos (Int.sub_self _)]
    exact ih fun i d hd => h (i + 1) d hd

/-- **What is sent is what is read**, when it stands for itself and there is room for it. -/
theorem mgGetVar_single {name v : List Char} {data : Nat → Char} {dstLen : Nat}
    (hdata : ∀ i c, (name ++ '=' :: v)[i]? = some c → data i = c) (hv : ∀ c ∈ v, Plain c)
    (hlen : v.length < dstLen) :
    mgGetVar data (name ++ '=' :: v).length name dstLen = (v, (v.length : Int)) := by
  have hbody : (name ++ '=' :: v).length = name.length + 1 + v.length := by
    rw [List.length_append, List.length_cons]
    omega
  have hvalue : ∀ j c, v[j]? = some c → data (name.length + 1 + j) = c := by
    intro j c hc
    refine hdata _ _ ?_
    rw [List.getElem?_append_right (by omega),
      show name.length + 1 + j - name.length = j + 1 by omega, List.getElem?_cons_succ, hc]
  have hnamed : NamedAt data name 0 := by
    refine ⟨.inl rfl, hdata _ _ ?_, mgStrncasecmp_self fun i c hc => hdata _ _ ?_⟩
    · rw [Nat.zero_add, List.getElem?_append_right (Nat.le_refl _), Nat.sub_self]
      rfl
    · have hi := (List.getElem?_eq_some_iff.1 hc).1
      rw [Nat.zero_add, List.getElem?_append_left hi, hc]
  have hfind : ((List.range (((name ++ '=' :: v).length : Int).toNat - name.length)).find?
      fun p => NamedAt data name p) = some 0 := by
    refine List.find?_range_eq_some.2 ⟨decide_eq_true hnamed, List.mem_range.2 ?_, ?_⟩
    · omega
    · intro j hj
      exact absurd hj (Nat.not_lt_zero j)
  have hend : valueLen (fun j => data (name.length + 1 + j)) v.length = v.length := by
    refine valueLen_eq fun j hj => ?_
    rw [hvalue j _ (List.getElem?_eq_getElem hj)]
    exact (hv _ (List.getElem_mem hj)).2.2
  have hrest : ((name ++ '=' :: v).length : Int).toNat - (0 + name.length + 1) = v.length := by
    omega
  rw [mgGetVar, if_neg (by omega), if_neg (by omega), hfind]
  dsimp only
  rw [hrest, Nat.zero_add, hend, urlDecode_plain hvalue hv hlen]
  exact congrArg (Prod.mk v) (if_neg (by omega))

end SerialServer.Mongoose
