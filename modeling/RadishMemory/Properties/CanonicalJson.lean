import RadishMemory.Properties.CanonicalNumbers
import RadishMemory.Properties.JsonParser

/-!
# Canonical JSON is a canonical form

The writer's output is a text of the same meaning, and it depends on the meaning only.  Both are
by induction on the parsed value; the members of an object are compared as sorted lists without
repeated keys.  With the parser between the text and the value, the canonical text is a fixed
point, and two inputs have one canonical text exactly when they denote the same.
-/

namespace RadishMemory.CanonicalJson

open Json (Tree Derives Admitted IsString IsText IsMember Denotation denote denoteItems
  denoteMembers decodeChars IsUnescaped)
open Decimal (IsNumeral IsExpansion textValue)

/-! ## Strings -/

theorem hex4_hexDigit {n : Nat} (h : n ≤ 0x1f) :
    Json.hex4 '0' '0' (hexDigit (n / 16)) (hexDigit (n % 16)) = some n := by
  have hall : ∀ n : Fin 32, Json.hex4 '0' '0' (hexDigit (n.1 / 16)) (hexDigit (n.1 % 16)) =
      some n.1 := by decide
  exact hall ⟨n, by omega⟩

theorem decodeChars_control {c : Char} (h : c.toNat ≤ 0x1f) (rest : List Char) :
    decodeChars ('\\' :: 'u' :: '0' :: '0' :: hexDigit (c.toNat / 16) ::
      hexDigit (c.toNat % 16) :: rest) = (decodeChars rest).map (c :: ·) := by
  have hhigh : ¬ Json.IsHighSurrogate c.toNat := by
    unfold Json.IsHighSurrogate
    omega
  have hlow : ¬ Json.IsLowSurrogate c.toNat := by
    unfold Json.IsLowSurrogate
    omega
  rw [decodeChars, hex4_hexDigit h]
  simp only [if_neg hhigh, if_neg hlow, Char.ofNat_toNat]

theorem decodeChars_escaped {c d : Char} (hc : c ≠ 'u') (h : Json.escaped c = some d)
    (rest : List Char) : decodeChars ('\\' :: c :: rest) = (decodeChars rest).map (d :: ·) := by
  rw [decodeChars, h]
  intro _ _ _ _ _ heq
  exact absurd heq hc

theorem decodeChars_unescaped {c : Char} (h : IsUnescaped c) (rest : List Char) :
    decodeChars (c :: rest) = (decodeChars rest).map (c :: ·) := by
  have hslash := h.2.2
  rw [decodeChars, if_pos h]
  · exact fun _ _ _ _ _ heq => absurd heq hslash
  · exact fun _ _ heq => absurd heq hslash

/-- A written character decodes to itself. -/
theorem decodeChars_writeCharacter (c : Char) (rest : List Char) :
    decodeChars (writeCharacter c ++ rest) = (decodeChars rest).map (c :: ·) := by
  unfold writeCharacter
  by_cases hquote : c = '"'
  · subst hquote
    exact decodeChars_escaped (by decide) rfl rest
  rw [if_neg hquote]
  by_cases hslash : c = '\\'
  · subst hslash
    exact decodeChars_escaped (by decide) rfl rest
  rw [if_neg hslash]
  by_cases hbackspace : c = '\x08'
  · subst hbackspace
    exact decodeChars_escaped (by decide) rfl rest
  rw [if_neg hbackspace]
  by_cases htab : c = '\t'
  · subst htab
    exact decodeChars_escaped (by decide) rfl rest
  rw [if_neg htab]
  by_cases hnewline : c = '\n'
  · subst hnewline
    exact decodeChars_escaped (by decide) rfl rest
  rw [if_neg hnewline]
  by_cases hfeed : c = '\x0c'
  · subst hfeed
    exact decodeChars_escaped (by decide) rfl rest
  rw [if_neg hfeed]
  by_cases hreturn : c = '\r'
  · subst hreturn
    exact decodeChars_escaped (by decide) rfl rest
  rw [if_neg hreturn]
  by_cases hcontrol : c.toNat ≤ 0x1f
  · rw [if_pos hcontrol]
    exact decodeChars_control hcontrol rest
  · rw [if_neg hcontrol]
    exact decodeChars_unescaped ⟨by omega, hquote, hslash⟩ rest

example : writeCharacter '\x1f' = "\\u001f".toList ∧
    decodeChars "\\u001f".toList = some ['\x1f'] := by decide +kernel

theorem isString_writeString (s : List Char) : IsString (writeString s) s := by
  refine ⟨s.flatMap writeCharacter, rfl, ?_⟩
  induction s with
  | nil => rfl
  | cons c s ih =>
    rw [List.flatMap_cons, decodeChars_writeCharacter, ih]
    rfl

/-! ## Written values -/

/-- Induction on values, with the items of arrays and the members of objects as lists. -/
theorem Value.induct {motive : Value → Prop} (boolean : ∀ value, motive (.boolean value))
    (number : ∀ lexeme, motive (.number lexeme)) (string : ∀ value, motive (.string value))
    (array : ∀ items, (∀ item ∈ items, motive item) → motive (.array items))
    (object : ∀ members, (∀ member ∈ members, motive member.2) → motive (.object members))
    (value : Value) : motive value := by
  refine @Value.rec motive (fun items => ∀ item ∈ items, motive item)
    (fun members => ∀ member ∈ members, motive member.2) (fun member => motive member.2) boolean
    number string array object ?_ ?_ ?_ ?_ ?_ value
  · intro item hitem
    cases hitem
  · intro item items hitem hitems item' hmem
    rcases List.mem_cons.1 hmem with rfl | hmem
    · exact hitem
    · exact hitems item' hmem
  · intro member hmember
    cases hmember
  · intro member members hmember hmembers member' hmem
    rcases List.mem_cons.1 hmem with rfl | hmem
    · exact hmember
    · exact hmembers member' hmem
  · intro key value hvalue
    exact hvalue

def WritesItem (item : Value) (t : List Char) : Prop :=
  writeValue item = .ok t

def WritesMember (member : List Char × Value) (w : List Char × List Char) : Prop :=
  member.1 = w.1 ∧ writeValue member.2 = .ok w.2

theorem writeItems_eq_ok_iff {items : List Value} {written : List (List Char)} :
    writeItems items = .ok written ↔
      List.Forall₂ WritesItem items written := by
  induction items generalizing written with
  | nil =>
    rw [writeItems, List.forall₂_nil_left_iff]
    exact ⟨fun h => (Except.ok.inj h).symm, fun h => by rw [h]⟩
  | cons item items ih =>
    rw [writeItems, List.forall₂_cons_left_iff]
    simp only [Except.bind_eq_ok_iff, Except.pure_eq_ok_iff, ih]
    constructor
    · rintro ⟨t, hitem, rest, hitems, rfl⟩
      exact ⟨t, rest, hitem, hitems, rfl⟩
    · rintro ⟨t, rest, hitem, hitems, rfl⟩
      exact ⟨t, hitem, rest, hitems, rfl⟩

theorem writeMembers_eq_ok_iff {members : List (List Char × Value)}
    {written : List (List Char × List Char)} :
    writeMembers members = .ok written ↔
      List.Forall₂ WritesMember members written := by
  induction members generalizing written with
  | nil =>
    rw [writeMembers, List.forall₂_nil_left_iff]
    exact ⟨fun h => (Except.ok.inj h).symm, fun h => by rw [h]⟩
  | cons member members ih =>
    rw [writeMembers, List.forall₂_cons_left_iff]
    simp only [Except.bind_eq_ok_iff, Except.pure_eq_ok_iff, ih, Prod.exists]
    constructor
    · rintro ⟨t, hvalue, rest, hmembers, rfl⟩
      exact ⟨member.1, t, rest, ⟨rfl, hvalue⟩, hmembers, rfl⟩
    · rintro ⟨key, t, rest, ⟨rfl, hvalue⟩, hmembers, rfl⟩
      exact ⟨t, hvalue, rest, hmembers, rfl⟩

theorem keys_of_written {members : List (List Char × Value)}
    {written : List (List Char × List Char)} (h : List.Forall₂ WritesMember members written) :
    written.map Prod.fst = members.map Prod.fst := by
  induction h with
  | nil => rfl
  | cons hmember _ ih => rw [List.map_cons, List.map_cons, ih, hmember.1]

theorem mem_written_iff {members : List (List Char × Value)}
    {written : List (List Char × List Char)} (h : List.Forall₂ WritesMember members written)
    {w : List Char × List Char} :
    w ∈ written ↔ ∃ value, (w.1, value) ∈ members ∧ writeValue value = .ok w.2 := by
  induction h with
  | nil => simp
  | @cons member w' members written hmember _ ih =>
    obtain ⟨key, value⟩ := member
    obtain ⟨rfl, hvalue⟩ := hmember
    rw [List.mem_cons, ih]
    constructor
    · rintro (rfl | ⟨value', hmem, hvalue'⟩)
      · exact ⟨value, List.mem_cons_self, hvalue⟩
      · exact ⟨value', List.mem_cons_of_mem _ hmem, hvalue'⟩
    · rintro ⟨value', hmem, hvalue'⟩
      rcases List.mem_cons.1 hmem with heq | hmem
      · obtain ⟨hkey, rfl⟩ := Prod.mk.inj heq
        rw [hvalue] at hvalue'
        exact .inl (Prod.ext hkey (Except.ok.inj hvalue').symm)
      · exact .inr ⟨value', hmem, hvalue'⟩

theorem mem_memberTrees {members : List (List Char × Value)} {key : List Char} {tree : Tree} :
    (key, tree) ∈ memberTrees members ↔ ∃ value, (key, value) ∈ members ∧ value.toTree = tree := by
  rw [memberTrees_eq, List.mem_map]
  constructor
  · rintro ⟨member, hmem, heq⟩
    obtain ⟨rfl, rfl⟩ := Prod.mk.inj heq
    exact ⟨member.2, hmem, rfl⟩
  · rintro ⟨value, hmem, rfl⟩
    exact ⟨_, hmem, rfl⟩

theorem keys_memberTrees (members : List (List Char × Value)) :
    (memberTrees members).map Prod.fst = members.map Prod.fst := by
  rw [memberTrees_eq, List.map_map]
  rfl

/-! ## The canonical text -/

/-- What the writer makes of a value: a canonical text of the same meaning. -/
def Canonical (depth : Nat) (value : Value) (t : List Char) : Prop :=
  ∃ tree, Derives (.value tree) t ∧ denote tree = denote value.toTree ∧
    Admitted maxNestingDepth Settled depth tree

theorem canonical_array {depth : Nat} {items : List Value} {written : List (List Char)}
    (hdepth : depth ≤ maxNestingDepth)
    (h : List.Forall₂ (Canonical (depth + 1)) items written) :
    Canonical depth (.array items) ('[' :: ([','].intercalate written ++ [']'])) := by
  -- The trees of the written items, in order.
  obtain ⟨trees, htrees, hdenote, hadmitted⟩ : ∃ trees : List Tree,
      List.Forall₂ (fun tree t => Derives (.value tree) t) trees written ∧
        trees.map denote = (itemTrees items).map denote ∧
          ∀ tree ∈ trees, Admitted maxNestingDepth Settled (depth + 1) tree := by
    induction h with
    | nil =>
      refine ⟨[], .nil, rfl, fun tree htree => ?_⟩
      cases htree
    | cons hitem _ ih =>
      obtain ⟨tree, hderives, hdenote, hadmitted⟩ := hitem
      obtain ⟨trees, htrees, hdenotes, hadmitteds⟩ := ih
      refine ⟨tree :: trees, .cons hderives htrees, ?_, ?_⟩
      · rw [itemTrees, List.map_cons, List.map_cons, hdenote, hdenotes]
      · intro tree' htree'
        rcases List.mem_cons.1 htree' with rfl | htree'
        · exact hadmitted
        · exact hadmitteds tree' htree'
  refine ⟨.array trees, ?_, ?_, .array hdepth hadmitted⟩
  · by_cases hempty : trees = []
    · rw [hempty] at htrees ⊢
      rw [List.forall₂_nil_left_iff.1 htrees]
      exact .emptyArray Json.isSpace_nil
    · exact .array (Json.derives_items hempty htrees)
  · rw [Value.toTree, denote, denote, Json.denoteItems_eq, Json.denoteItems_eq, hdenote]

/-- A written member: its text is canonical, and it comes from a member of the object. -/
def CanonicalMember (depth : Nat) (members : List (List Char × Value))
    (w : List Char × List Char) (member : List Char × Tree) : Prop :=
  member.1 = w.1 ∧ Derives (.value member.2) w.2 ∧
    Admitted maxNestingDepth Settled depth member.2 ∧
      ∃ value, (w.1, value) ∈ members ∧ denote member.2 = denote value.toTree

theorem canonicalMember_keys {depth : Nat} {members : List (List Char × Value)}
    {sorted : List (List Char × List Char)} {trees : List (List Char × Tree)}
    (h : List.Forall₂ (CanonicalMember depth members) sorted trees) :
    trees.map Prod.fst = sorted.map Prod.fst := by
  induction h with
  | nil => rfl
  | cons hmember _ ih => rw [List.map_cons, List.map_cons, ih, hmember.1]

theorem canonicalMember_derives {depth : Nat} {members : List (List Char × Value)}
    {sorted : List (List Char × List Char)} {trees : List (List Char × Tree)}
    (h : List.Forall₂ (CanonicalMember depth members) sorted trees) :
    List.Forall₂ IsMember trees (sorted.map writeMember) := by
  induction h with
  | nil => exact .nil
  | @cons w member _ _ hmember _ ih =>
    obtain ⟨hkey, hderives, -⟩ := hmember
    refine .cons ⟨writeString w.1, w.2, ?_, hderives, rfl⟩ ih
    rw [hkey]
    exact isString_writeString w.1

/-- Where no key stands twice, the members with canonical texts say the same as the object. -/
theorem canonicalMember_denote {depth : Nat} {members : List (List Char × Value)}
    {sorted : List (List Char × List Char)} {trees : List (List Char × Tree)}
    (h : List.Forall₂ (CanonicalMember depth members) sorted trees)
    (hkeys : (members.map Prod.fst).Nodup)
    (hperm : (trees.map Prod.fst).Perm (members.map Prod.fst)) :
    denoteMembers trees = denoteMembers (memberTrees members) := by
  have hnodup : (trees.map Prod.fst).Nodup := hperm.nodup_iff.2 hkeys
  have hnodup' : ((memberTrees members).map Prod.fst).Nodup := by
    rw [keys_memberTrees]
    exact hkeys
  -- A canonical member comes from a member of the object.
  have hsource : ∀ {key : List Char} {tree : Tree}, (key, tree) ∈ trees →
      ∃ value, (key, value) ∈ members ∧ denote tree = denote value.toTree := by
    intro key tree hmem
    obtain ⟨w, -, hkey, -, -, value, hvalue, hdenote⟩ := h.exists_of_mem_right hmem
    rw [← hkey] at hvalue
    exact ⟨value, hvalue, hdenote⟩
  funext key
  ext d
  rw [Json.denoteMembers_eq_some_iff hnodup, Json.denoteMembers_eq_some_iff hnodup']
  constructor
  · rintro ⟨tree, hmem, rfl⟩
    obtain ⟨value, hvalue, hdenote⟩ := hsource hmem
    exact ⟨value.toTree, mem_memberTrees.2 ⟨value, hvalue, rfl⟩, hdenote.symm⟩
  · rintro ⟨tree, hmem, rfl⟩
    obtain ⟨value, hvalue, rfl⟩ := mem_memberTrees.1 hmem
    have hkey : key ∈ trees.map Prod.fst :=
      hperm.mem_iff.2 (List.mem_map.2 ⟨(key, value), hvalue, rfl⟩)
    obtain ⟨⟨key', tree⟩, hmem', rfl⟩ := List.mem_map.1 hkey
    obtain ⟨value', hvalue', hdenote⟩ := hsource hmem'
    have hsame := List.inj_on_of_nodup_map hkeys hvalue hvalue' rfl
    obtain ⟨-, rfl⟩ := Prod.mk.inj hsame
    exact ⟨tree, hmem', hdenote⟩

theorem canonical_object {depth : Nat} {members : List (List Char × Value)}
    {written : List (List Char × List Char)} (hdepth : depth ≤ maxNestingDepth)
    (hkeys : (members.map Prod.fst).Nodup)
    (hwritten : List.Forall₂ WritesMember members written)
    (h : ∀ member ∈ members, ∀ t, writeValue member.2 = .ok t →
      Canonical (depth + 1) member.2 t) :
    Canonical depth (.object members)
      ('{' :: ([','].intercalate ((written.insertionSort keyLe).map writeMember) ++ ['}'])) := by
  have hperm : (written.insertionSort keyLe).Perm written := List.perm_insertionSort _ _
  obtain ⟨trees, htrees⟩ : ∃ trees, List.Forall₂ (CanonicalMember (depth + 1) members)
      (written.insertionSort keyLe) trees := by
    apply List.exists_forall₂
    intro w hw
    obtain ⟨value, hmem, hvalue⟩ := (mem_written_iff hwritten).1 (hperm.mem_iff.1 hw)
    obtain ⟨tree, hderives, hdenote, hadmitted⟩ := h _ hmem _ hvalue
    exact ⟨(w.1, tree), rfl, hderives, hadmitted, value, hmem, hdenote⟩
  have hkeyPerm : (trees.map Prod.fst).Perm (members.map Prod.fst) := by
    rw [canonicalMember_keys htrees, ← keys_of_written hwritten]
    exact hperm.map Prod.fst
  refine ⟨.object trees, ?_, ?_, .object hdepth (hkeyPerm.nodup_iff.2 hkeys) ?_⟩
  · by_cases hempty : trees = []
    · rw [hempty] at htrees ⊢
      rw [List.forall₂_nil_right_iff.1 htrees]
      exact .emptyObject Json.isSpace_nil
    · exact .object (Json.derives_members hempty (canonicalMember_derives htrees))
  · rw [Value.toTree, denote, denote, canonicalMember_denote htrees hkeys hkeyPerm]
  · intro member hmember
    obtain ⟨w, -, -, -, hadmitted, -⟩ := htrees.exists_of_mem_right hmember
    exact hadmitted

/-- What the writer returns is a canonical text of the value. -/
theorem canonical_of_writeValue (value : Value) {depth : Nat} {out : List Char}
    (hadmitted : Admitted maxNestingDepth IsNumeral depth value.toTree)
    (h : writeValue value = .ok out) : Canonical depth value out := by
  induction value using Value.induct generalizing depth out with
  | boolean value =>
    rw [writeValue] at h
    cases h
    refine ⟨.boolean value, ?_, rfl, .boolean (admitted_depth hadmitted)⟩
    cases value with
    | true => exact .true
    | false => exact .false
  | number lexeme =>
    rw [writeValue] at h
    cases hadmitted with
    | number hdepth hnumeral =>
      obtain ⟨hsettled, hvalue⟩ := settled_of_normalized hnumeral h
      refine ⟨.number out, .number hsettled.1, ?_, .number hdepth hsettled⟩
      rw [Value.toTree, denote, denote, hvalue]
  | string value =>
    rw [writeValue] at h
    cases h
    exact ⟨.string value, .string (isString_writeString value), rfl,
      .string (admitted_depth hadmitted)⟩
  | array items ih =>
    rw [writeValue] at h
    simp only [Except.bind_eq_ok_iff, Except.pure_eq_ok_iff, writeItems_eq_ok_iff] at h
    obtain ⟨written, hwritten, rfl⟩ := h
    cases hadmitted with
    | array hdepth hitems =>
      rw [itemTrees_eq, List.forall_mem_map] at hitems
      have hcanonical : ∀ item ∈ items, ∀ t, writeValue item = .ok t →
          Canonical (depth + 1) item t := fun item hitem t ht =>
        ih item hitem (hitems item hitem) ht
      exact canonical_array hdepth
        (((List.forall₂_and_left _ _).2 ⟨hcanonical, hwritten⟩).imp fun item t ht => ht.1 t ht.2)
  | object members ih =>
    rw [writeValue] at h
    simp only [Except.bind_eq_ok_iff, Except.pure_eq_ok_iff, writeMembers_eq_ok_iff] at h
    obtain ⟨written, hwritten, rfl⟩ := h
    cases hadmitted with
    | object hdepth hkeys hmembers =>
      rw [keys_memberTrees] at hkeys
      apply canonical_object hdepth hkeys hwritten
      intro member hmember t ht
      exact ih member hmember (hmembers (member.1, member.2.toTree)
        (mem_memberTrees.2 ⟨member.2, hmember, rfl⟩)) ht

/-! ## The meaning decides the text -/

instance : Std.Total keyLe :=
  ⟨fun a b => le_total a.1 b.1⟩

instance : IsTrans (List Char × List Char) keyLe :=
  ⟨fun _ _ _ hab hbc => le_trans hab hbc⟩

/-- Two lists of written members with the same members are written in one order. -/
theorem sorted_eq {written written' : List (List Char × List Char)}
    (hkeys : (written.map Prod.fst).Nodup) (hkeys' : (written'.map Prod.fst).Nodup)
    (h : ∀ w, w ∈ written ↔ w ∈ written') :
    written.insertionSort keyLe = written'.insertionSort keyLe := by
  have hperm : written.Perm written' :=
    (List.perm_ext_iff_of_nodup (.of_map _ hkeys) (.of_map _ hkeys')).2 h
  have hsorted := List.perm_insertionSort keyLe written
  have hsorted' := List.perm_insertionSort keyLe written'
  refine List.Perm.eq_of_pairwise ?_ (List.pairwise_insertionSort keyLe written)
    (List.pairwise_insertionSort keyLe written') (hsorted.trans (hperm.trans hsorted'.symm))
  intro a b ha hb hab hba
  have ha' : a ∈ written := hsorted.mem_iff.1 ha
  have hb' : b ∈ written := (h b).2 (hsorted'.mem_iff.1 hb)
  exact List.inj_on_of_nodup_map hkeys ha' hb' (le_antisymm hab hba)

/-- Objects of the same meaning have members of the same meaning under each key. -/
theorem exists_counterpart {members members' : List (List Char × Value)}
    (hkeys : (members.map Prod.fst).Nodup) (hkeys' : (members'.map Prod.fst).Nodup)
    (hdenote : denoteMembers (memberTrees members) = denoteMembers (memberTrees members'))
    {key : List Char} {value : Value} (hmem : (key, value) ∈ members) :
    ∃ value', (key, value') ∈ members' ∧ denote value'.toTree = denote value.toTree := by
  rw [← keys_memberTrees] at hkeys hkeys'
  have hsome : denoteMembers (memberTrees members) key = some (denote value.toTree) :=
    (Json.denoteMembers_eq_some_iff hkeys).2
      ⟨value.toTree, mem_memberTrees.2 ⟨value, hmem, rfl⟩, rfl⟩
  rw [hdenote] at hsome
  obtain ⟨tree, htree, heq⟩ := (Json.denoteMembers_eq_some_iff hkeys').1 hsome
  obtain ⟨value', hvalue', rfl⟩ := mem_memberTrees.1 htree
  exact ⟨value', hvalue', heq⟩

theorem exists_written {members : List (List Char × Value)}
    {written : List (List Char × List Char)} (h : List.Forall₂ WritesMember members written)
    {key : List Char} {value : Value} (hmem : (key, value) ∈ members) :
    ∃ t, (key, t) ∈ written ∧ writeValue value = .ok t := by
  obtain ⟨w, hw, rfl, hvalue⟩ := h.exists_of_mem_left hmem
  exact ⟨w.2, hw, hvalue⟩

/-- Two values are written alike where they mean the same. -/
def Agree (value value' : Value) : Prop :=
  denote value.toTree = denote value'.toTree →
    ∀ t t', writeValue value = .ok t → writeValue value' = .ok t' → t = t'

theorem written_eq_of_items {items items' : List Value} {written written' : List (List Char)}
    (hwritten : List.Forall₂ WritesItem items written)
    (hwritten' : List.Forall₂ WritesItem items' written')
    (hdenote : denoteItems (itemTrees items) = denoteItems (itemTrees items'))
    (h : ∀ item ∈ items, ∀ item' ∈ items', Agree item item') : written = written' := by
  induction hwritten generalizing items' written' with
  | nil =>
    cases hwritten' with
    | nil => rfl
    | cons _ _ => cases hdenote
  | @cons item t items written hitem _ ih =>
    cases hwritten' with
    | nil => cases hdenote
    | @cons item' t' items' written' hitem' hitems' =>
      simp only [itemTrees, denoteItems, List.cons.injEq] at hdenote
      have hhead : t = t' :=
        h item List.mem_cons_self item' List.mem_cons_self hdenote.1 t t' hitem hitem'
      have htail : written = written' := ih hitems' hdenote.2 fun x hx x' hx' =>
        h x (List.mem_cons_of_mem _ hx) x' (List.mem_cons_of_mem _ hx')
      rw [hhead, htail]

theorem mem_written_of_members {members members' : List (List Char × Value)}
    {written written' : List (List Char × List Char)}
    (hkeys : (members.map Prod.fst).Nodup) (hkeys' : (members'.map Prod.fst).Nodup)
    (hwritten : List.Forall₂ WritesMember members written)
    (hwritten' : List.Forall₂ WritesMember members' written')
    (hdenote : denoteMembers (memberTrees members) = denoteMembers (memberTrees members'))
    (h : ∀ member ∈ members, ∀ member' ∈ members', Agree member.2 member'.2)
    (w : List Char × List Char) : w ∈ written ↔ w ∈ written' := by
  constructor
  · intro hw
    obtain ⟨value, hmem, hvalue⟩ := (mem_written_iff hwritten).1 hw
    obtain ⟨value', hmem', heq⟩ := exists_counterpart hkeys hkeys' hdenote hmem
    obtain ⟨t, ht, hvalue'⟩ := exists_written hwritten' hmem'
    have hsame : w.2 = t := h _ hmem _ hmem' heq.symm _ _ hvalue hvalue'
    rwa [← hsame] at ht
  · intro hw
    obtain ⟨value', hmem', hvalue'⟩ := (mem_written_iff hwritten').1 hw
    obtain ⟨value, hmem, heq⟩ := exists_counterpart hkeys' hkeys hdenote.symm hmem'
    obtain ⟨t, ht, hvalue⟩ := exists_written hwritten hmem
    have hsame : t = w.2 := h _ hmem _ hmem' heq _ _ hvalue hvalue'
    rwa [hsame] at ht

/-- Values of the same meaning have one canonical text. -/
theorem agree_of_admitted (value : Value) {value' : Value} {depth depth' : Nat}
    (hadmitted : Admitted maxNestingDepth IsNumeral depth value.toTree)
    (hadmitted' : Admitted maxNestingDepth IsNumeral depth' value'.toTree) :
    Agree value value' := by
  intro hdenote out out' h h'
  induction value using Value.induct generalizing value' depth depth' out out' with
  | boolean b =>
    cases value' with
    | boolean b' =>
      simp only [Value.toTree, denote, Denotation.boolean.injEq] at hdenote
      rw [hdenote, h'] at h
      exact (Except.ok.inj h).symm
    | _ => cases hdenote
  | number lexeme =>
    cases value' with
    | number lexeme' =>
      simp only [Value.toTree, denote, Denotation.number.injEq] at hdenote
      rw [writeValue] at h h'
      cases hadmitted with
      | number _ hnumeral =>
        cases hadmitted' with
        | number _ hnumeral' =>
          have hout := ((normalizeNumber_eq_ok_iff hnumeral).1 h).1.1
          have hout' := ((normalizeNumber_eq_ok_iff hnumeral').1 h').1.1
          exact Decimal.IsPlain.eq_of_value_eq hout.1 hout'.1
            (hout.2.trans (hdenote.trans hout'.2.symm))
    | _ => cases hdenote
  | string s =>
    cases value' with
    | string s' =>
      simp only [Value.toTree, denote, Denotation.string.injEq] at hdenote
      rw [hdenote, h'] at h
      exact (Except.ok.inj h).symm
    | _ => cases hdenote
  | array items ih =>
    cases value' with
    | array items' =>
      simp only [Value.toTree, denote, Denotation.array.injEq] at hdenote
      rw [writeValue] at h h'
      simp only [Except.bind_eq_ok_iff, Except.pure_eq_ok_iff, writeItems_eq_ok_iff] at h h'
      obtain ⟨written, hwritten, rfl⟩ := h
      obtain ⟨written', hwritten', rfl⟩ := h'
      cases hadmitted with
      | array _ hitems =>
        cases hadmitted' with
        | array _ hitems' =>
          rw [itemTrees_eq, List.forall_mem_map] at hitems hitems'
          have hagree : ∀ item ∈ items, ∀ item' ∈ items', Agree item item' :=
            fun item hitem item' hitem' heq => ih item hitem (hitems item hitem)
              (hitems' item' hitem') heq
          rw [written_eq_of_items hwritten hwritten' hdenote hagree]
    | _ => cases hdenote
  | object members ih =>
    cases value' with
    | object members' =>
      simp only [Value.toTree, denote, Denotation.object.injEq] at hdenote
      rw [writeValue] at h h'
      simp only [Except.bind_eq_ok_iff, Except.pure_eq_ok_iff, writeMembers_eq_ok_iff] at h h'
      obtain ⟨written, hwritten, rfl⟩ := h
      obtain ⟨written', hwritten', rfl⟩ := h'
      cases hadmitted with
      | object _ hkeys hmembers =>
        cases hadmitted' with
        | object _ hkeys' hmembers' =>
          rw [keys_memberTrees] at hkeys hkeys'
          rw [memberTrees_eq, List.forall_mem_map] at hmembers hmembers'
          have hagree : ∀ member ∈ members, ∀ member' ∈ members', Agree member.2 member'.2 :=
            fun member hmember member' hmember' heq => ih member hmember
              (hmembers member hmember) (hmembers' member' hmember') heq
          have hsame := sorted_eq (by rwa [keys_of_written hwritten])
            (by rwa [keys_of_written hwritten'])
            (mem_written_of_members hkeys hkeys' hwritten hwritten' hdenote hagree)
          rw [hsame]
    | _ => cases hdenote

/-! ## What is written -/

/-- The number has a canonical text. -/
def Normalizes (t : List Char) : Prop :=
  ∃ out, normalizeNumber t = .ok out

/-- A value is written exactly when its numbers are. -/
theorem writeValue_ok_iff (value : Value) {depth : Nat}
    (hadmitted : Admitted maxNestingDepth IsNumeral depth value.toTree) :
    (∃ out, writeValue value = .ok out) ↔
      Admitted maxNestingDepth Normalizes depth value.toTree := by
  induction value using Value.induct generalizing depth with
  | boolean b => exact ⟨fun _ => .boolean (admitted_depth hadmitted), fun _ => ⟨_, rfl⟩⟩
  | number lexeme =>
    rw [writeValue]
    constructor
    · intro h
      exact .number (admitted_depth hadmitted) h
    · intro h
      cases h with
      | number _ hfits => exact hfits
  | string s => exact ⟨fun _ => .string (admitted_depth hadmitted), fun _ => ⟨_, rfl⟩⟩
  | array items ih =>
    rw [writeValue]
    simp only [Except.bind_eq_ok_iff, Except.pure_eq_ok_iff, writeItems_eq_ok_iff]
    cases hadmitted with
    | array hdepth hitems =>
      rw [itemTrees_eq, List.forall_mem_map] at hitems
      constructor
      · rintro ⟨_, written, hwritten, -⟩
        refine .array hdepth ?_
        rw [itemTrees_eq, List.forall_mem_map]
        intro item hitem
        obtain ⟨t, -, ht⟩ := hwritten.exists_of_mem_left hitem
        exact (ih item hitem (hitems item hitem)).1 ⟨t, ht⟩
      · intro h
        cases h with
        | array _ hfits =>
          rw [itemTrees_eq, List.forall_mem_map] at hfits
          obtain ⟨written, hwritten⟩ := List.exists_forall₂ fun item hitem =>
            (ih item hitem (hitems item hitem)).2 (hfits item hitem)
          exact ⟨_, written, hwritten, rfl⟩
  | object members ih =>
    rw [writeValue]
    simp only [Except.bind_eq_ok_iff, Except.pure_eq_ok_iff, writeMembers_eq_ok_iff]
    cases hadmitted with
    | object hdepth hkeys hmembers =>
      rw [memberTrees_eq, List.forall_mem_map] at hmembers
      constructor
      · rintro ⟨_, written, hwritten, -⟩
        refine .object hdepth hkeys ?_
        rw [memberTrees_eq, List.forall_mem_map]
        intro member hmember
        obtain ⟨w, -, -, ht⟩ := hwritten.exists_of_mem_left hmember
        exact (ih member hmember (hmembers member hmember)).1 ⟨w.2, ht⟩
      · intro h
        cases h with
        | object _ _ hfits =>
          rw [memberTrees_eq, List.forall_mem_map] at hfits
          obtain ⟨written, hwritten⟩ : ∃ written, List.Forall₂ WritesMember members written := by
            apply List.exists_forall₂
            intro member hmember
            obtain ⟨t, ht⟩ :=
              (ih member hmember (hmembers member hmember)).2 (hfits member hmember)
            exact ⟨(member.1, t), rfl, ht⟩
          exact ⟨_, written, hwritten, rfl⟩

/-! ## The whole input -/

section Inputs

variable [SerdeJson]

theorem canonicalizeJson_eq_ok_iff {input : String} {bytes : List UInt8} :
    canonicalizeJson input = .ok bytes ↔ ∃ value out, parse input.toList = .ok value ∧
      writeValue value = .ok out ∧ utf8Bytes (String.ofList out) = bytes := by
  simp only [canonicalizeJson, Except.bind_eq_ok_iff, Except.pure_eq_ok_iff]
  constructor
  · rintro ⟨value, hparse, out, hwrite, rfl⟩
    exact ⟨value, out, hparse, hwrite, rfl⟩
  · rintro ⟨value, out, hparse, hwrite, rfl⟩
    exact ⟨value, hparse, out, hwrite, rfl⟩

/-- The input is a text of the accepted syntax that denotes `d`. -/
def Denotes (input : String) (d : Denotation) : Prop :=
  ∃ tree, IsText tree input.toList ∧ Admitted maxNestingDepth IsNumeral 0 tree ∧ denote tree = d

variable [SerdeJson.Documented]

theorem denotes_iff {input : String} {value : Value} (h : parse input.toList = .ok value)
    (d : Denotation) : Denotes input d ↔ d = denote value.toTree := by
  obtain ⟨htext, hadmitted⟩ := parse_sound h
  constructor
  · rintro ⟨tree, htext', hadmitted', rfl⟩
    rw [tree_unique htext hadmitted htext' hadmitted']
  · rintro rfl
    exact ⟨_, htext, hadmitted, rfl⟩

/-- The canonical text is accepted, is its own canonical text and denotes the same. -/
theorem canonical_text {input : String} {bytes : List UInt8}
    (h : canonicalizeJson input = .ok bytes) :
    ∃ output, utf8Bytes output = bytes ∧ canonicalizeJson output = .ok bytes ∧
      ∃ d, (∀ d', Denotes input d' ↔ d' = d) ∧ ∀ d', Denotes output d' ↔ d' = d := by
  obtain ⟨value, out, hparse, hwrite, rfl⟩ := canonicalizeJson_eq_ok_iff.1 h
  obtain ⟨-, hadmitted⟩ := parse_sound hparse
  obtain ⟨tree, hderives, hdenote, hsettled⟩ := canonical_of_writeValue value hadmitted hwrite
  have htext : IsText tree out :=
    ⟨[], out, [], Json.isSpace_nil, hderives, Json.isSpace_nil, by simp⟩
  obtain ⟨value', rfl, hparse'⟩ :=
    parse_complete htext (hsettled.mono fun t ht => ht.1)
  obtain ⟨-, hadmitted'⟩ := parse_sound hparse'
  obtain ⟨out', hwrite'⟩ :=
    (writeValue_ok_iff value' hadmitted').2 (hsettled.mono fun t ht => ⟨t, ht.2⟩)
  have hsame : out' = out :=
    agree_of_admitted value' hadmitted' hadmitted hdenote out' out hwrite' hwrite
  have houtput : parse (String.ofList out).toList = .ok value' := by
    rw [String.toList_ofList, hparse']
  refine ⟨String.ofList out, rfl, ?_, denote value.toTree, denotes_iff hparse, ?_⟩
  · exact canonicalizeJson_eq_ok_iff.2 ⟨value', out', houtput, hwrite', by rw [hsame]⟩
  · intro d
    rw [denotes_iff houtput, hdenote]

/-- Two accepted inputs have one canonical text exactly when they denote the same. -/
theorem canonical_text_eq_iff {input input' : String} {bytes bytes' : List UInt8}
    (h : canonicalizeJson input = .ok bytes) (h' : canonicalizeJson input' = .ok bytes') :
    bytes = bytes' ↔ ∃ d, Denotes input d ∧ Denotes input' d := by
  constructor
  · rintro rfl
    obtain ⟨output, houtput, -, d, hinput, hd⟩ := canonical_text h
    obtain ⟨output', houtput', -, d', hinput', hd'⟩ := canonical_text h'
    obtain rfl := utf8Bytes_injective (houtput.trans houtput'.symm)
    have hsame : d = d' := (hd' d).1 ((hd d).2 rfl)
    exact ⟨d, (hinput d).2 rfl, (hinput' d).2 hsame⟩
  · rintro ⟨d, hd, hd'⟩
    obtain ⟨value, out, hparse, hwrite, rfl⟩ := canonicalizeJson_eq_ok_iff.1 h
    obtain ⟨value', out', hparse', hwrite', rfl⟩ := canonicalizeJson_eq_ok_iff.1 h'
    have hdenote : denote value.toTree = denote value'.toTree :=
      ((denotes_iff hparse d).1 hd).symm.trans ((denotes_iff hparse' d).1 hd')
    rw [agree_of_admitted value (parse_sound hparse).2 (parse_sound hparse').2 hdenote out out'
      hwrite hwrite']

/-- Canonical JSON is a canonical form of what an accepted input denotes. -/
theorem canonicalizeJson_canonical :
    (∀ (input : String) (bytes : List UInt8), canonicalizeJson input = .ok bytes →
      ∃ output, utf8Bytes output = bytes ∧ canonicalizeJson output = .ok bytes ∧
        ∃ d, (∀ d', Denotes input d' ↔ d' = d) ∧ ∀ d', Denotes output d' ↔ d' = d) ∧
    ∀ (input input' : String) (bytes bytes' : List UInt8),
      canonicalizeJson input = .ok bytes → canonicalizeJson input' = .ok bytes' →
        (bytes = bytes' ↔ ∃ d, Denotes input d ∧ Denotes input' d) :=
  ⟨fun _ _ h => canonical_text h, fun _ _ _ _ h h' => canonical_text_eq_iff h h'⟩

/-! ## The accepted language -/

omit [SerdeJson] [SerdeJson.Documented] in
theorem normalizes_iff {t : List Char} (h : IsNumeral t) :
    Normalizes t ↔ Expandable t ∧ PositionFits (Decimal.split t) := by
  unfold Normalizes Expandable
  simp only [normalizeNumber_eq_ok_iff h]
  constructor
  · rintro ⟨out, hout, hfits⟩
    exact ⟨⟨out, hout⟩, hfits⟩
  · rintro ⟨⟨out, hout⟩, hfits⟩
    exact ⟨out, hout, hfits⟩

/-- The inputs that the canonical form is for. -/
def InLanguage (input : String) : Prop :=
  ∃ tree, IsText tree input.toList ∧ Admitted maxNestingDepth Expandable 0 tree

/-- The exponents of the text, and the positions of the points that they move, fit `i64`. -/
def ExponentsFit (input : String) : Prop :=
  ∀ tree, IsText tree input.toList → Admitted maxNestingDepth Expandable 0 tree →
    Admitted maxNestingDepth (fun t => PositionFits (Decimal.split t)) 0 tree

theorem accepted_iff {input : String} :
    (∃ bytes, canonicalizeJson input = .ok bytes) ↔ ∃ tree, IsText tree input.toList ∧
      Admitted maxNestingDepth (fun t => Expandable t ∧ PositionFits (Decimal.split t)) 0 tree := by
  constructor
  · rintro ⟨bytes, h⟩
    obtain ⟨value, out, hparse, hwrite, -⟩ := canonicalizeJson_eq_ok_iff.1 h
    obtain ⟨htext, hadmitted⟩ := parse_sound hparse
    have hnormalizes := (writeValue_ok_iff value hadmitted).1 ⟨out, hwrite⟩
    exact ⟨value.toTree, htext, (hadmitted.and hnormalizes).mono fun t ht =>
      (normalizes_iff ht.1).1 ht.2⟩
  · rintro ⟨tree, htext, hfits⟩
    have hnumerals := hfits.numerals htext
    obtain ⟨value, rfl, hparse⟩ := parse_complete htext hnumerals
    have hnormalizes : Admitted maxNestingDepth Normalizes 0 value.toTree :=
      (hnumerals.and hfits).mono fun t ht => (normalizes_iff ht.1).2 ht.2
    obtain ⟨out, hwrite⟩ := (writeValue_ok_iff value hnumerals).2 hnormalizes
    exact ⟨_, canonicalizeJson_eq_ok_iff.2 ⟨value, out, hparse, hwrite, rfl⟩⟩

/-- What is accepted is in the language, and what is in the language is accepted unless an
exponent is out of range. -/
theorem accepts_language_iff (input : String) :
    ((∃ bytes, canonicalizeJson input = .ok bytes) ↔ InLanguage input) ↔ ExponentsFit input := by
  rw [accepted_iff]
  constructor
  · intro h tree htext hexpandable
    obtain ⟨tree', htext', hfits⟩ := h.2 ⟨tree, htext, hexpandable⟩
    rw [tree_unique htext (hexpandable.numerals htext) htext' (hfits.numerals htext')]
    exact hfits.mono fun _ ht => ht.2
  · intro h
    constructor
    · rintro ⟨tree, htext, hfits⟩
      exact ⟨tree, htext, hfits.mono fun _ ht => ht.1⟩
    · rintro ⟨tree, htext, hexpandable⟩
      exact ⟨tree, htext, hexpandable.and (h tree htext hexpandable)⟩

end Inputs

/-! ## A JSON library -/

namespace Sample

/-- A library that does what the documentation says. -/
instance serdeJson : SerdeJson where
  stringFromSlice := Json.stringValue
  numberFromSlice := fun t => if IsNumeral t then some t else none

instance serdeJson_documented : SerdeJson.Documented where
  string := fun _ _ _ _ => Json.stringValue_eq_some_iff
  number := by
    intro t lexeme _
    change (if IsNumeral t then some t else none) = some lexeme ↔ _
    by_cases h : IsNumeral t
    · rw [if_pos h, Option.some_inj]
      exact ⟨fun heq => ⟨h, heq.symm⟩, fun heq => heq.2.symm⟩
    · rw [if_neg h]
      exact ⟨fun heq => by (cases heq), fun heq => absurd heq.1 h⟩

theorem canonicalizeJson_spellings :
    canonicalizeJson "[1.0,\"\\u0061\"]" = .ok (utf8Bytes "[1,\"a\"]") ∧
      canonicalizeJson " [10e-1, \"a\" ]" = .ok (utf8Bytes "[1,\"a\"]") := by
  decide +kernel

/-- Two spellings of one array have one canonical text, which is a fixed point. -/
theorem canonicalizeJson_canonical_spellings :
    canonicalizeJson "[1,\"a\"]" = .ok (utf8Bytes "[1,\"a\"]") ∧
      ∃ d, Denotes "[1.0,\"\\u0061\"]" d ∧ Denotes " [10e-1, \"a\" ]" d := by
  obtain ⟨h, h'⟩ := canonicalizeJson_spellings
  obtain ⟨output, houtput, hfixed, -⟩ := canonicalizeJson_canonical.1 _ _ h
  refine ⟨?_, (canonicalizeJson_canonical.2 _ _ _ _ h h').1 rfl⟩
  rwa [utf8Bytes_injective houtput] at hfixed

/-- A zero with an exponent that `i64` cannot hold. -/
def hugeZero : String :=
  "0e99999999999999999999"

theorem canonicalizeJson_hugeZero :
    canonicalizeJson hugeZero = .error .numberExpansionLimit := by
  decide +kernel

theorem inLanguage_hugeZero : InLanguage hugeZero := by
  have hnumeral : IsNumeral hugeZero.toList := by decide +kernel
  have hcoefficient : (Decimal.split hugeZero.toList).coefficient = 0 := by decide +kernel
  have hzero : textValue hugeZero.toList = 0 := by
    unfold textValue Decimal.Numeral.value
    rw [hcoefficient]
    simp
  have hplain : Decimal.IsPlain ['0'] :=
    ⟨{ negative := false, integer := ['0'], fraction := [], exponent := none },
      ⟨by decide, rfl, by decide, fun _ => rfl⟩, rfl⟩
  have hplainZero : textValue ['0'] = 0 := by
    have hcoefficient : (Decimal.split ['0']).coefficient = 0 := by decide
    unfold textValue Decimal.Numeral.value
    rw [hcoefficient]
    simp
  refine ⟨.number hugeZero.toList, ⟨[], _, [], Json.isSpace_nil, .number hnumeral, Json.isSpace_nil,
    by simp⟩, .number (Nat.zero_le _) ⟨['0'], ⟨hplain, hplainZero.trans hzero.symm⟩, by decide⟩⟩

/-- The code refuses a zero for its exponent. -/
theorem accepts_language_hugeZero :
    ¬ ((∃ bytes, canonicalizeJson hugeZero = .ok bytes) ↔ InLanguage hugeZero) := by
  intro h
  obtain ⟨bytes, hbytes⟩ := h.2 inLanguage_hugeZero
  rw [canonicalizeJson_hugeZero] at hbytes
  cases hbytes

/-- The exponent of an accepted spelling fits. -/
theorem exponentsFit_spelling : ExponentsFit " [10e-1, \"a\" ]" := by
  have haccepted : ∃ bytes, canonicalizeJson " [10e-1, \"a\" ]" = .ok bytes :=
    ⟨_, canonicalizeJson_spellings.2⟩
  obtain ⟨tree, htext, hfits⟩ := accepted_iff.1 haccepted
  exact (accepts_language_iff _).1
    ⟨fun _ => ⟨tree, htext, hfits.mono fun _ ht => ht.1⟩, fun _ => haccepted⟩

end Sample

end RadishMemory.CanonicalJson
