import WebRtcNetty.Html.BinaryPack.Numbers

/-!
# Strings on the data channels

A blob has the UTF-8 of a string, and what reads it knows no sequences of four bytes. So a string
arrives if it has no surrogates, and no other string does (`unpackAt_clean`, `clean_of_unpackAt`).
-/

namespace WebRtcNetty.Html.BinaryPack

open Protobuf

/-! ## Strings -/

/-- The string has no surrogates. -/
def Clean (s : List UInt16) : Prop := ∀ c ∈ s, isSurrogate c = false

instance (s : List UInt16) : Decidable (Clean s) := List.decidableBAll _ s

section
variable {c : UInt16} {s cs : List UInt16}

/-- The range of the surrogates. -/
theorem isSurrogate_iff : isSurrogate c = true ↔ 0xD800 ≤ c.toNat ∧ c.toNat < 0xE000 := by
  rw [isSurrogate, Bool.and_eq_true, decide_eq_true_iff, decide_eq_true_iff]
  exact and_congr UInt16.le_iff_toNat_le UInt16.lt_iff_toNat_lt

/-- A pair begins with a surrogate. -/
theorem isPair_of_not_surrogate (h : isSurrogate c = false) (c2 : UInt16) :
    Utf8.isPair c c2 = false := by
  refine Bool.eq_false_iff.2 fun hpair => ?_
  have hnot : ¬ isSurrogate c = true := by simp [h]
  rw [isSurrogate_iff] at hnot
  have := (Utf8.isPair_iff.1 hpair).1
  omega

/-- Other units stay as they are. -/
theorem toWellFormed_cons (h : isSurrogate c = false) (cs : List UInt16) :
    toWellFormed (c :: cs) = c :: toWellFormed cs := by
  cases cs with
  | nil => simp [toWellFormed, h]
  | cons c2 cs => simp [toWellFormed, isPair_of_not_surrogate h, h]

/-- A clean beginning is written as it is. -/
theorem blobOf_append (h : Clean s) (cs : List UInt16) :
    blobOf (s ++ cs) = Utf8.write s ++ blobOf cs := by
  induction s with
  | nil => rfl
  | cons c s ih =>
    have hc := h c List.mem_cons_self
    have hpair (cs : List UInt16) : ∀ c2 ∈ cs.head?, Utf8.isPair c c2 = false :=
      fun c2 _ => isPair_of_not_surrogate hc c2
    have hs := ih fun c hmem => h c (List.mem_cons_of_mem _ hmem)
    rw [blobOf] at hs
    rw [blobOf, List.cons_append, toWellFormed_cons hc, Utf8.write_cons (hpair _), hs,
      Utf8.write_cons (hpair s), List.append_assoc, blobOf]

/-- A clean string is written as it is. -/
theorem blobOf_clean (h : Clean s) : blobOf s = Utf8.write s := by
  have happend := blobOf_append h []
  rwa [List.append_nil, show blobOf [] = [] from rfl, List.append_nil] at happend

/-- One, two or three bytes, by the number of the unit. -/
theorem utf8Replace_eq (c : UInt16) :
    utf8Replace c = if c.toNat < 128 then 1 else if c.toNat < 2048 then 2 else 3 := by
  have hle {n : Nat} (hn : n < 65536) : c ≤ UInt16.ofNat n ↔ c.toNat < n + 1 := by
    rw [UInt16.le_iff_toNat_le, Utf8.toNat_ofNat hn, Nat.lt_succ_iff]
  have hone : c ≤ 0x7f ↔ c.toNat < 128 := hle (by decide)
  have htwo : c ≤ 0x7ff ↔ c.toNat < 2048 := hle (by decide)
  rw [utf8Replace]
  simp only [hone, htwo]

/-- The length of a unit. -/
theorem length_write_unit (c : UInt16) : (Utf8.write [c]).length = utf8Replace c := by
  rw [Utf8.write_unit, utf8Replace_eq]
  split
  · rfl
  · split
    · rfl
    · rfl

/-- The lengths of its units add up to that of a clean string. -/
theorem sum_utf8Replace (h : Clean s) : (s.map utf8Replace).sum = (Utf8.write s).length := by
  induction s with
  | nil => rfl
  | cons c s ih =>
    have hpair : ∀ c2 ∈ s.head?, Utf8.isPair c c2 = false :=
      fun c2 _ => isPair_of_not_surrogate (h c List.mem_cons_self) c2
    rw [List.map_cons, List.sum_cons, ih fun c hmem => h c (List.mem_cons_of_mem _ hmem),
      Utf8.write_cons hpair, List.length_append, length_write_unit]

/-- The length that is announced for a clean string is that of its bytes. -/
theorem utf8Length_clean (h : Clean s) : utf8Length s = (blobOf s).length := by
  unfold utf8Length
  split
  · rfl
  · rw [sum_utf8Replace h, blobOf_clean h]

end

/-! ## Reading strings -/

section
variable {c : Nat} (bs : List UInt8)

/-- A unit of one byte is read. -/
theorem unpackString_bytes₁ (h : c < 128) :
    unpackString.loop (Utf8.bytes₁ c ++ bs) 0 = .ofNat c :: unpackString.loop bs 0 := by
  have hc : (UInt8.ofNat c).toNat = c := Utf8.toNat_byte (by omega)
  simp only [Utf8.bytes₁, List.cons_append, List.nil_append, unpackString.loop, hc, if_pos h]

/-- A unit of two bytes is read. -/
theorem unpackString_bytes₂ (h : 128 ≤ c) (h' : c < 2048) :
    unpackString.loop (Utf8.bytes₂ c ++ bs) 0 = .ofNat c :: unpackString.loop bs 0 := by
  have hlead : (UInt8.ofNat (c / 64 + 192)).toNat = c / 64 + 192 := Utf8.toNat_byte (by omega)
  have hlast : Utf8.byteAt (.ofNat (c % 64 + 128) :: bs) 0 = c % 64 + 128 :=
    Utf8.toNat_byte (by omega)
  have hxor : (c / 64 + 192) ^^^ 192 = c / 64 :=
    (by decide : ∀ k < 32, (k + 192) ^^^ 192 = k) _ (by omega)
  have hc : c / 64 * 64 + (c % 64 + 128) % 64 = c := by omega
  simp only [Utf8.bytes₂_eq h', List.cons_append, List.nil_append, unpackString.loop, hlead,
    if_neg (show ¬ c / 64 + 192 < 128 by omega), hxor, if_pos (show c / 64 < 32 by omega),
    Utf8.digits₂, hlast, hc]

/-- A unit of three bytes is read. -/
theorem unpackString_bytes₃ (h : 2048 ≤ c) (h' : c < 65536) :
    unpackString.loop (Utf8.bytes₃ c ++ bs) 0 = .ofNat c :: unpackString.loop bs 0 := by
  have hlead : (UInt8.ofNat (c / 4096 + 224)).toNat = c / 4096 + 224 := Utf8.toNat_byte (by omega)
  have hmiddle : Utf8.byteAt (.ofNat (c / 64 % 64 + 128) :: .ofNat (c % 64 + 128) :: bs) 0 =
      c / 64 % 64 + 128 := Utf8.toNat_byte (by omega)
  have hlast : Utf8.byteAt (.ofNat (c / 64 % 64 + 128) :: .ofNat (c % 64 + 128) :: bs) 1 =
      c % 64 + 128 := Utf8.toNat_byte (by omega)
  have hmask : c / 4096 + 224 &&& 15 = c / 4096 :=
    (Nat.and_two_pow_sub_one_eq_mod _ 4).trans (by omega)
  have hxor : ¬ (c / 4096 + 224) ^^^ 192 < 32 :=
    (by decide : ∀ k < 16, ¬ (k + 224) ^^^ 192 < 32) _ (by omega)
  have hc : (c / 4096 * 64 + (c / 64 % 64 + 128) % 64) * 64 + (c % 64 + 128) % 64 = c := by omega
  simp only [Utf8.bytes₃_eq h', List.cons_append, List.nil_append, unpackString.loop, hlead,
    if_neg (show ¬ c / 4096 + 224 < 128 by omega), if_neg hxor, hmask, Utf8.digits₃, hmiddle, hlast,
    hc]

/-- A unit is read as it has been written. -/
theorem unpackString_unit (c : UInt16) :
    unpackString.loop (Utf8.write [c] ++ bs) 0 = c :: unpackString.loop bs 0 := by
  have hc : c.toNat < 65536 := c.toNat_lt
  have hofNat : UInt16.ofNat c.toNat = c := UInt16.ofNat_toNat
  rw [Utf8.write_unit]
  split
  · rw [unpackString_bytes₁ bs (by omega), hofNat]
  · split
    · rw [unpackString_bytes₂ bs (by omega) (by omega), hofNat]
    · rw [unpackString_bytes₃ bs (by omega) hc, hofNat]

/-- A clean string is read as it has been written. -/
theorem unpackString_write {s : List UInt16} (h : Clean s) :
    unpackString.loop (Utf8.write s ++ bs) 0 = s ++ unpackString.loop bs 0 := by
  induction s with
  | nil => rfl
  | cons c s ih =>
    have hpair : ∀ c2 ∈ s.head?, Utf8.isPair c c2 = false :=
      fun c2 _ => isPair_of_not_surrogate (h c List.mem_cons_self) c2
    rw [Utf8.write_cons hpair, List.append_assoc, unpackString_unit,
      ih fun c hmem => h c (List.mem_cons_of_mem _ hmem)]
    rfl

/-- The bytes of a surrogate are read as something else, whatever comes after the first three. -/
theorem unpackString_surrogate {c : UInt16} (h : isSurrogate c = true) (cs : List UInt16) :
    ∃ b₀ b₁ b₂ bytes, blobOf (c :: cs) = b₀ :: b₁ :: b₂ :: bytes ∧
      ∀ bs, (unpackString.loop (b₀ :: b₁ :: b₂ :: bs) 0).head? ≠ some c := by
  rw [isSurrogate_iff] at h
  by_cases hpair : ∃ c2 cs', cs = c2 :: cs' ∧ Utf8.isPair c c2 = true
  · obtain ⟨c2, cs, rfl, hpair⟩ := hpair
    obtain ⟨hhigh, hlow⟩ := Utf8.isPair_iff.1 hpair
    have hjoined := Utf8.joined_eq c c2
    have hlead : (UInt8.ofNat (Utf8.joined c c2 / 262144 + 240)).toNat =
        Utf8.joined c c2 / 262144 + 240 := Utf8.toNat_byte (by omega)
    have hmask : Utf8.joined c c2 / 262144 + 240 &&& 15 = Utf8.joined c c2 / 262144 :=
      (Nat.and_two_pow_sub_one_eq_mod _ 4).trans (by omega)
    have hxor : ¬ (Utf8.joined c c2 / 262144 + 240) ^^^ 192 < 32 :=
      (by decide : ∀ k < 8, ¬ (k + 240) ^^^ 192 < 32) _ (by omega)
    have hblob : blobOf (c :: c2 :: cs) =
        Utf8.bytes₄ (Utf8.joined c c2) ++ Utf8.write (toWellFormed cs) := by
      rw [blobOf, toWellFormed, if_pos hpair, Utf8.write_pair hpair]
    rw [Utf8.bytes₄_eq (by omega)] at hblob
    refine ⟨_, _, _, _, hblob, fun bs heq => ?_⟩
    simp only [unpackString.loop, hlead,
      if_neg (show ¬ Utf8.joined c c2 / 262144 + 240 < 128 by omega), if_neg hxor, hmask,
      Utf8.digits₃, List.head?_cons, Option.some.injEq] at heq
    rw [← heq, UInt16.toNat_ofNat'] at h
    omega
  · have hlone : toWellFormed (c :: cs) = 0xFFFD :: toWellFormed cs := by
      cases cs with
      | nil => simp [toWellFormed, isSurrogate_iff, h]
      | cons c2 cs =>
        have hnot : Utf8.isPair c c2 = false := by
          refine Bool.eq_false_iff.2 fun hp => hpair ⟨c2, cs, rfl, hp⟩
        simp [toWellFormed, hnot, isSurrogate_iff, h]
    have hwrite : blobOf (c :: cs) = Utf8.bytes₃ 0xFFFD ++ Utf8.write (toWellFormed cs) := by
      rw [blobOf, hlone, Utf8.write_cons fun c2 _ => isPair_of_not_surrogate (by decide) c2]
      rfl
    refine ⟨_, _, _, _, hwrite, fun bs heq => ?_⟩
    have hread :
        unpackString.loop (Utf8.bytes₃ 0xFFFD ++ bs) 0 = 0xFFFD :: unpackString.loop bs 0 :=
      unpackString_bytes₃ bs (by decide) (by decide)
    have hc : some (0xFFFD : UInt16) = some c := (congrArg List.head? hread).symm.trans heq
    rw [← Option.some.inj hc] at h
    exact absurd h (by decide)

end

/-! ## Behind a length -/

section
variable {data bytes : List UInt8} {index depth : Nat} {s : List UInt16}

/-- A string is packed as its length and its bytes. -/
theorem packString_some (h : packString s = some bytes) :
    ∃ size, packLength 0xb0 0xd8 0xd9 (utf8Length s) = some size ∧ bytes = size ++ blobOf s := by
  obtain ⟨size, hsize, rfl⟩ := Option.map_eq_some_iff.1 h
  exact ⟨size, hsize, rfl⟩

/-- A clean string is read. -/
theorem unpackAt_clean (hs : Clean s) (hpack : packString s = some bytes)
    (h : At data index bytes) :
    unpackAt data (depth + 1) index = some (.string s, index + bytes.length) := by
  obtain ⟨size, hsize, rfl⟩ := packString_some hpack
  have hread := h.right.read
  rw [unpackAt_string hsize h.left, unpackString, utf8Length_clean hs, hread, Option.map_some,
    blobOf_clean hs, List.length_append, Nat.add_assoc]
  have hloop := unpackString_write [] hs
  rw [List.append_nil] at hloop
  rw [hloop]
  exact congrArg (fun s => some (Value.string s, _)) (List.append_nil s)

/-- A string with surrogates begins with a clean one. -/
theorem exists_surrogate (hs : ¬ Clean s) :
    ∃ before c after, s = before ++ c :: after ∧ Clean before ∧ isSurrogate c = true := by
  induction s with
  | nil => exact absurd (fun _ hc => absurd hc List.not_mem_nil) hs
  | cons c s ih =>
    cases hc : isSurrogate c with
    | true => exact ⟨[], c, s, rfl, fun _ hc => absurd hc List.not_mem_nil, hc⟩
    | false =>
      have hrest : ¬ Clean s := fun hrest =>
        hs fun c' hc' => (List.mem_cons.1 hc').elim (fun heq => heq ▸ hc) (hrest c')
      obtain ⟨before, c', after, rfl, hbefore, hc'⟩ := ih hrest
      refine ⟨c :: before, c', after, rfl, fun d hd => ?_, hc'⟩
      exact (List.mem_cons.1 hd).elim (fun heq => heq ▸ hc) (hbefore d)

/-- The length that is announced covers what comes up to the first surrogate, and its bytes. -/
theorem le_utf8Length {before after : List UInt16} {c : UInt16} (hbefore : Clean before)
    (hc : isSurrogate c = true) (hblob : 3 ≤ (blobOf (c :: after)).length) :
    (Utf8.write before).length + 3 ≤ utf8Length (before ++ c :: after) := by
  unfold utf8Length
  split
  · rw [blobOf_append hbefore, List.length_append]
    omega
  · have hthree : utf8Replace c = 3 := by
      rw [isSurrogate_iff] at hc
      rw [utf8Replace_eq, if_neg (by omega), if_neg (by omega)]
    rw [List.map_append, List.sum_append, sum_utf8Replace hbefore, List.map_cons, List.sum_cons,
      hthree]
    omega

/-- Another string is not. -/
theorem clean_of_unpackAt {i : Nat} (hpack : packString s = some bytes) (h : At data index bytes)
    (hread : unpackAt data (depth + 1) index = some (.string s, i)) : Clean s := by
  by_contra hs
  obtain ⟨before, c, after, rfl, hbefore, hc⟩ := exists_surrogate hs
  obtain ⟨size, hsize, rfl⟩ := packString_some hpack
  obtain ⟨b₀, b₁, b₂, rest, hblob, hne⟩ := unpackString_surrogate hc after
  have hle := le_utf8Length hbefore hc (by rw [hblob]; exact Nat.le_add_left 3 _)
  rw [unpackAt_string hsize h.left, unpackString] at hread
  obtain ⟨bs, hbs, heq⟩ := Option.map_eq_some_iff.1 hread
  have hstring : unpackString.loop bs 0 = before ++ c :: after := by
    injection heq with hvalue
    injection hvalue
  -- What is read has the clean beginning and the first bytes of the surrogate in it.
  obtain ⟨more, rfl⟩ : ∃ more, bs = Utf8.write before ++ b₀ :: b₁ :: b₂ :: more := by
    obtain ⟨data₀, data₁, hdata, hlen⟩ := h.right
    rw [read] at hbs
    split at hbs
    · cases hbs
      obtain ⟨k, hk⟩ := Nat.exists_eq_add_of_le hle
      refine ⟨(rest ++ data₁).take k, ?_⟩
      rw [hdata, ← hlen, List.drop_left, blobOf_append hbefore, hblob, hk, List.append_assoc,
        Nat.add_assoc, List.take_length_add_append, Nat.add_comm 3]
      rfl
    · cases hbs
  rw [unpackString_write _ hbefore] at hstring
  exact hne more (by rw [List.append_cancel_left hstring]; rfl)

end

end WebRtcNetty.Html.BinaryPack
