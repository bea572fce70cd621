import WebRtcNetty.Lib.Proto2.Schema

/-!
# Reading a message with another schema

What a message written under one schema says when it is read under another: the fields are matched
by their numbers on the wire, and compared here by their names. `Fields.Agrees` says that the value
that is read has the values of the fields that both schemas name, and no others.

Schemas agree on every message when each field of the one that reads is declared by the one that
writes, with the same number, label and type, or has a name and a number that this one does not use
(`Fields.decodesAs_of_compatible`).
-/

namespace Proto2

/-! ## Fields by name -/

/-- The field names of a message type. -/
def Fields.names : Fields → List String
  | .nil => []
  | .cons name _ _ _ rest => name :: rest.names

/-- The type of the field with the name, and the values that a message has in it. -/
def Fields.get : (fs : Fields) → fs.Val → String → Option ((t : FieldType) × List t.Val)
  | .nil, _, _ => none
  | .cons m _ (.singular _) t rest, (v, vs), name =>
    if name = m then some ⟨t, v.toList⟩ else rest.get vs name
  | .cons m _ .repeated t rest, (v, vs), name =>
    if name = m then some ⟨t, v⟩ else rest.get vs name

theorem Fields.get_self {name : String} {n : Nat} {r : Bool} {t : FieldType} {rest : Fields}
    (v : Option t.Val) (vs : rest.Val) :
    (Fields.cons name n (.singular r) t rest).get (v, vs) name = some ⟨t, v.toList⟩ :=
  if_pos rfl

theorem Fields.get_of_ne {name m : String} {n : Nat} {r : Bool} {t : FieldType} {rest : Fields}
    (v : Option t.Val) (vs : rest.Val) (h : name ≠ m) :
    (Fields.cons m n (.singular r) t rest).get (v, vs) name = rest.get vs name :=
  if_neg h

/-- Singular fields of one type have the same values when they hold the same. -/
theorem toList_inj_of_get {t : FieldType} {v w : Option t.Val}
    (h : some (⟨t, v.toList⟩ : (t : FieldType) × List t.Val) = some ⟨t, w.toList⟩) : v = w := by
  have hlist : v.toList = w.toList := eq_of_heq (Sigma.mk.inj (Option.some.inj h)).2
  rw [← t.mergeAll_toList v, hlist, t.mergeAll_toList w]

/-- The field is declared with the name, number, label and type. -/
def Fields.Declares : Fields → String → Nat → Label → FieldType → Prop
  | .nil, _, _, _, _ => False
  | .cons m k l u rest, name, n, label, t =>
    (m = name ∧ k = n ∧ l = label ∧ u = t) ∨ rest.Declares name n label t

/-- `w` has the values of `v` in the fields that both message types name, and nothing in its other
fields. -/
structure Fields.Agrees (fs gs : Fields) (v : fs.Val) (w : gs.Val) : Prop where
  shared : ∀ name ∈ fs.names, name ∈ gs.names → gs.get w name = fs.get v name
  others : ∀ name ∈ gs.names, name ∉ fs.names → ∃ t, gs.get w name = some ⟨t, []⟩

/-- The encoding of the message is read under the other schema, as a message that agrees with it. -/
def Fields.DecodesAs (fs gs : Fields) (m : Message fs) : Prop :=
  ∃ m', gs.parseFrom (fs.toByteArray m.val) = some m' ∧ fs.Agrees gs m.val m'.val

/-- Each field of `gs` is a field of `fs`, or neither its name nor its number is one that `fs` uses,
and it is not required. -/
def Fields.Compatible (fs gs : Fields) : Prop :=
  ∀ name n label t, gs.Declares name n label t → fs.Declares name n label t ∨
    name ∉ fs.names ∧ n ∉ fs.numbers ∧ label ≠ .required

theorem Fields.compatible_self (fs : Fields) : fs.Compatible fs :=
  fun _ _ _ _ h => .inl h

/-- Every message agrees with the message type that has no fields. -/
theorem Fields.compatible_nil (fs : Fields) : fs.Compatible .nil :=
  fun _ _ _ _ h => h.elim

/-! ## What a declared field holds -/

/-- The label allows the values: one at most where it is singular, and one at least where it is
required. -/
def Label.Allows {α : Type} : Label → List α → Prop
  | .singular isRequired, xs => xs.length ≤ 1 ∧ (isRequired = true → xs ≠ [])
  | .repeated, _ => True

/-- A field on the wire and its values. -/
structure Occurrences (raws : List RawField) (n : Nat) (label : Label) (t : FieldType)
    (xs : List t.Val) : Prop where
  filter : raws.filter (·.number = n) = xs.map fun x => ⟨n, t.encode x⟩
  allows : label.Allows xs
  initialized : ∀ x ∈ xs, t.isInitialized x = true

section
variable {fs gs : Fields} {name : String} {n depth : Nat} {label : Label} {t : FieldType}

theorem Fields.Declares.mem_names : ∀ {fs : Fields}, fs.Declares name n label t → name ∈ fs.names
  | .nil, h => h.elim
  | .cons _ _ _ _ _, .inl ⟨h, _⟩ => h ▸ .head _
  | .cons _ _ _ _ _, .inr h => .tail _ h.mem_names

theorem Fields.Declares.mem_numbers : ∀ {fs : Fields}, fs.Declares name n label t → n ∈ fs.numbers
  | .nil, h => h.elim
  | .cons _ _ _ _ _, .inl ⟨_, h, _⟩ => h ▸ .head _
  | .cons _ _ _ _ _, .inr h => .tail _ h.mem_numbers

theorem Fields.Declares.wf : ∀ {fs : Fields}, fs.Declares name n label t → fs.wf = true →
    t.wf = true
  | .nil, h, _ => h.elim
  | .cons _ _ _ _ rest, h, hwf => by
    simp only [Fields.wf, Bool.and_eq_true] at hwf
    rcases h with ⟨-, -, -, rfl⟩ | h
    · exact hwf.1.2
    · exact Fields.Declares.wf h hwf.2

theorem Fields.Declares.depth_le : ∀ {fs : Fields}, fs.Declares name n label t →
    t.depth ≤ fs.depth
  | .nil, h => h.elim
  | .cons _ _ _ _ rest, h => by
    rw [Fields.depth]
    rcases h with ⟨-, -, -, rfl⟩ | h
    · exact le_max_left _ _
    · exact h.depth_le.trans (le_max_right _ _)

theorem Fields.get_eq_none : ∀ {fs : Fields} (v : fs.Val), name ∉ fs.names → fs.get v name = none
  | .nil, _, _ => rfl
  | .cons m _ (.singular _) _ rest, (v, vs), h => by
    rw [Fields.names, List.mem_cons, not_or] at h
    rw [Fields.get, if_neg h.1]
    exact Fields.get_eq_none vs h.2
  | .cons m _ .repeated _ rest, (v, vs), h => by
    rw [Fields.names, List.mem_cons, not_or] at h
    rw [Fields.get, if_neg h.1]
    exact Fields.get_eq_none vs h.2

/-- The fields of a message with another number do not occur. -/
theorem Fields.filter_encode_eq_nil (v : fs.Val) (h : n ∉ fs.numbers) :
    (fs.encode v).filter (·.number = n) = [] :=
  List.filter_eq_nil_iff.2 fun f hf he => h (by
    rw [← of_decide_eq_true he]
    exact (Fields.mem_encode hf).1)

/-- What the encoding of a message has under the number of a declared field are the values that the
message has in it. -/
theorem Fields.Declares.occurrences : ∀ {fs : Fields} {v : fs.Val}, fs.wf = true →
    fs.names.Nodup → fs.isInitialized v = true → fs.Declares name n label t →
      ∃ xs, fs.get v name = some ⟨t, xs⟩ ∧ Occurrences (fs.encode v) n label t xs
  | .nil, _, _, _, _, h => h.elim
  | .cons m k (.singular isRequired) u rest, (v, vs), hwf, hnames, hinit, h => by
    simp only [Fields.wf, Bool.and_eq_true, decide_eq_true_eq] at hwf
    simp only [Fields.isInitialized, Bool.and_eq_true] at hinit
    obtain ⟨hm, hnames⟩ := List.nodup_cons.1 hnames
    rcases h with ⟨rfl, rfl, rfl, rfl⟩ | h
    · refine ⟨v.toList, if_pos rfl, ?_, ?_, ?_⟩
      · exact filter_occurrences v.toList fun f hf he =>
          hwf.1.1.2 (he ▸ (Fields.mem_encode hf).1)
      · cases v with
        | none => exact ⟨Nat.zero_le _, fun hr => by simp [hr] at hinit⟩
        | some x => exact ⟨le_refl _, fun _ => List.cons_ne_nil _ _⟩
      · intro x hx
        obtain rfl := Option.mem_toList.1 hx
        exact hinit.1.2
    · have hname : name ≠ m := fun he => hm (he ▸ h.mem_names)
      have hnumber : n ≠ k := fun he => hwf.1.1.2 (he ▸ h.mem_numbers)
      obtain ⟨xs, hget, hocc⟩ := Fields.Declares.occurrences hwf.2 hnames hinit.2 h
      refine ⟨xs, (if_neg hname).trans hget, ?_, hocc.allows, hocc.initialized⟩
      exact (filter_occurrences_ne v.toList _ hnumber).trans hocc.filter
  | .cons m k .repeated u rest, (v, vs), hwf, hnames, hinit, h => by
    simp only [Fields.wf, Bool.and_eq_true, decide_eq_true_eq] at hwf
    simp only [Fields.isInitialized, Bool.and_eq_true] at hinit
    obtain ⟨hm, hnames⟩ := List.nodup_cons.1 hnames
    rcases h with ⟨rfl, rfl, rfl, rfl⟩ | h
    · refine ⟨v, if_pos rfl, ?_, trivial, fun x hx => List.all_eq_true.1 hinit.1 x hx⟩
      exact filter_occurrences v fun f hf he => hwf.1.1.2 (he ▸ (Fields.mem_encode hf).1)
    · have hname : name ≠ m := fun he => hm (he ▸ h.mem_names)
      have hnumber : n ≠ k := fun he => hwf.1.1.2 (he ▸ h.mem_numbers)
      obtain ⟨xs, hget, hocc⟩ := Fields.Declares.occurrences hwf.2 hnames hinit.2 h
      refine ⟨xs, (if_neg hname).trans hget, ?_, hocc.allows, hocc.initialized⟩
      exact (filter_occurrences_ne v _ hnumber).trans hocc.filter

/-! ## Reading -/

/-- The payloads of a field on the wire are read. -/
theorem Occurrences.mapM_decode {raws : List RawField} {xs : List t.Val}
    (h : Occurrences raws n label t xs)
    (hxs : ∀ x ∈ xs, t.decode depth (t.encode x) = some (some x)) :
    ((raws.filter (·.number = n)).mapM fun f => t.decode depth f.value) = some (xs.map some) := by
  rw [h.filter]
  exact Proto2.mapM_decode hxs

/-- A singular field has one value, or none. -/
theorem Label.Allows.exists_toList {α : Type} {isRequired : Bool} {xs : List α}
    (h : (Label.singular isRequired).Allows xs) : ∃ v : Option α, xs = v.toList := by
  match xs, h.1 with
  | [], _ => exact ⟨none, rfl⟩
  | [x], _ => exact ⟨some x, rfl⟩

/-- It is set if it is required, and its value is initialized. -/
theorem Occurrences.isInitialized {raws : List RawField} {isRequired : Bool} {v : Option t.Val}
    (h : Occurrences raws n (.singular isRequired) t v.toList) :
    (!isRequired || v.isSome) = true ∧ v.all t.isInitialized = true := by
  cases v with
  | some x => exact ⟨Bool.or_true _, h.initialized x (.head _)⟩
  | none =>
    refine ⟨?_, rfl⟩
    cases isRequired with
    | false => rfl
    | true => exact absurd rfl (h.allows.2 rfl)

/-- A message type reads a value of each field, if the values that the fields have on the wire are
allowed. -/
theorem Fields.decode_occurrences_of_declares {raws : List RawField}
    {Q : String → (t : FieldType) → List t.Val → Prop} : ∀ {gs : Fields},
    (∀ name n label t, gs.Declares name n label t → ∃ xs, Occurrences raws n label t xs ∧
      (∀ x ∈ xs, t.decode depth (t.encode x) = some (some x)) ∧ Q name t xs) →
    ∃ w, gs.decode depth raws = some w ∧ gs.isInitialized w = true ∧
      ∀ name ∈ gs.names, ∃ t xs, gs.get w name = some ⟨t, xs⟩ ∧ Q name t xs
  | .nil, _ => ⟨(), rfl, rfl, fun _ h => by cases h⟩
  | .cons m k (.singular isRequired) t rest, h => by
    obtain ⟨ws, hdecode, hinit, hget⟩ := Fields.decode_occurrences_of_declares
      fun name n label t hd => h name n label t (.inr hd)
    obtain ⟨xs, hocc, hxs, hQ⟩ := h m k (.singular isRequired) t (.inl ⟨rfl, rfl, rfl, rfl⟩)
    obtain ⟨v, rfl⟩ := hocc.allows.exists_toList
    refine ⟨(v, ws), ?_, ?_, fun name hname => ?_⟩
    · rw [Fields.decode, hocc.mapM_decode hxs, hdecode]
      simp [FieldType.mergeAll_toList]
    · obtain ⟨hset, hall⟩ := hocc.isInitialized
      rw [Fields.isInitialized, hset, hall, hinit]
      rfl
    · by_cases he : name = m
      · subst he
        exact ⟨t, v.toList, if_pos rfl, hQ⟩
      · obtain ⟨u, ys, hys, hq⟩ := hget name ((List.mem_cons.1 hname).resolve_left he)
        exact ⟨u, ys, (if_neg he).trans hys, hq⟩
  | .cons m k .repeated t rest, h => by
    obtain ⟨ws, hdecode, hinit, hget⟩ := Fields.decode_occurrences_of_declares
      fun name n label t hd => h name n label t (.inr hd)
    obtain ⟨xs, hocc, hxs, hQ⟩ := h m k .repeated t (.inl ⟨rfl, rfl, rfl, rfl⟩)
    refine ⟨(xs, ws), ?_, ?_, fun name hname => ?_⟩
    · rw [Fields.decode, hocc.mapM_decode hxs, hdecode]
      simp
    · rw [Fields.isInitialized, hinit, Bool.and_true]
      exact List.all_eq_true.2 hocc.initialized
    · by_cases he : name = m
      · subst he
        exact ⟨t, xs, if_pos rfl, hQ⟩
      · obtain ⟨u, ys, hys, hq⟩ := hget name ((List.mem_cons.1 hname).resolve_left he)
        exact ⟨u, ys, (if_neg he).trans hys, hq⟩

/-- The bytes of a message are read as the fields that were written. -/
theorem Fields.parseFrom_toByteArray_eq {fs gs : Fields} {v : fs.Val} (hwf : fs.wf = true)
    (hlen : (fs.toByteArray v).length < 2 ^ 31) : gs.parseFrom (fs.toByteArray v) =
      (gs.decode recursionLimit (fs.encode v)).bind gs.build := by
  rw [Fields.parseFrom, Fields.parsePartialFrom, Fields.toByteArray,
    parseFields_serialize (Fields.encode_valid hwf hlen)]
  rfl

/-- Where the schema that reads requires no field, only the values of the fields matter. -/
theorem Fields.decodesAs_iff (hoptional : gs.allOptional = true) (hwf : fs.wf = true)
    (m : Message fs) (hlen : (fs.toByteArray m.val).length < 2 ^ 31) : fs.DecodesAs gs m ↔
      ∃ w, gs.decode recursionLimit (fs.encode m.val) = some w ∧ fs.Agrees gs m.val w := by
  have hparse : gs.parseFrom (fs.toByteArray m.val) =
      (gs.decode recursionLimit (fs.encode m.val)).bind gs.build :=
    Fields.parseFrom_toByteArray_eq hwf hlen
  constructor
  · rintro ⟨m', hm', hagrees⟩
    rw [hparse, Option.bind_eq_some_iff] at hm'
    obtain ⟨w, hw, hbuild⟩ := hm'
    unfold Fields.build at hbuild
    split at hbuild
    · cases hbuild
      exact ⟨w, hw, hagrees⟩
    · cases hbuild
  · rintro ⟨w, hw, hagrees⟩
    refine ⟨⟨w, Fields.isInitialized_of_allOptional hoptional w⟩, ?_, hagrees⟩
    rw [hparse, hw]
    exact Fields.build_ok _

/-- Reads a message that stands in another one. -/
def Fields.parseNested (fs : Fields) (bs : ByteString) : Option fs.Val := do
  fs.decode (recursionLimit - 1) (← parseFields (recursionLimit - 1) bs)

theorem FieldType.decode_message (fs : Fields) (bs : ByteString) :
    (FieldType.message fs).decode recursionLimit (.lengthDelimited bs) =
      (fs.parseNested bs).map some := by
  rw [recursionLimit, FieldType.decode, Fields.parseNested, recursionLimit]
  cases parseFields 99 bs with
  | none => rfl
  | some raws => rfl

/-- Compatible schemas agree on every message. -/
theorem Fields.decodesAs_of_compatible (hcompat : fs.Compatible gs) (hwf : fs.wf = true)
    (hnames : fs.names.Nodup) (hdepth : fs.depth ≤ recursionLimit) (m : Message fs)
    (hlen : (fs.toByteArray m.val).length < 2 ^ 31) : fs.DecodesAs gs m := by
  obtain ⟨w, hdecode, hinit, hget⟩ : ∃ w, gs.decode recursionLimit (fs.encode m.val) = some w ∧
      gs.isInitialized w = true ∧ ∀ name ∈ gs.names, ∃ t xs, gs.get w name = some ⟨t, xs⟩ ∧
        (fs.get m.val name = some ⟨t, xs⟩ ∨ name ∉ fs.names ∧ xs = []) := by
    refine Fields.decode_occurrences_of_declares fun name n label t hd => ?_
    rcases hcompat name n label t hd with hd | ⟨hname, hnumber, hlabel⟩
    · obtain ⟨xs, hxs, hocc⟩ := hd.occurrences hwf hnames m.initialized
      refine ⟨xs, hocc, fun x hx => ?_, .inl hxs⟩
      have hmem : ⟨n, t.encode x⟩ ∈ (fs.encode m.val).filter (·.number = n) := by
        rw [hocc.filter]
        exact List.mem_map_of_mem hx
      exact FieldType.decode_encode (hd.wf hwf) (hd.depth_le.trans hdepth)
        (Fields.encode_valid hwf hlen _ (List.mem_of_mem_filter hmem)).2.2
    · refine ⟨[], ⟨?_, ?_, fun x hx => by cases hx⟩, fun x hx => (by cases hx), .inr ⟨hname, rfl⟩⟩
      · exact Fields.filter_encode_eq_nil m.val hnumber
      · cases label with
        | repeated => trivial
        | singular isRequired => exact ⟨Nat.zero_le _, fun hr => absurd (congrArg _ hr) hlabel⟩
  refine ⟨⟨w, hinit⟩, ?_, fun name hfs hgs => ?_, fun name hgs hfs => ?_⟩
  · rw [Fields.parseFrom_toByteArray_eq hwf hlen, hdecode]
    exact Fields.build_ok hinit
  · obtain ⟨t, xs, hw, hv | ⟨hnot, -⟩⟩ := hget name hgs
    · exact hw.trans hv.symm
    · exact absurd hfs hnot
  · obtain ⟨t, xs, hw, hv | ⟨-, rfl⟩⟩ := hget name hgs
    · cases (Fields.get_eq_none m.val hfs).symm.trans hv
    · exact ⟨t, hw⟩

end

end Proto2
