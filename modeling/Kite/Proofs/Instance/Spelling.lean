/-
Names as lists of segments, with a `_` between one segment and the next. A type inside a name starts
with the segments of its declaration or with a word of its own, and a compound ends with an empty
segment. As long as no declared name begins the way a type does, what a name is made of can be read
off its segments: no spelling of a type is the beginning of another one.
-/
import Kite.Proofs.Emission.Instances
import Mathlib.Tactic.MkIffOfInductiveProp

namespace Kite

open List Bool TyHead Program

variable {arity : Nat} {x : Segments} {decl : DefId} {a name : String} {ts : List Ty} {t : Ty} {others : List Ty}

abbrev Segments := List (List Char)

/-- What stands between the `_` of a name. -/
def segments (name : String) : Segments := name.toList.splitOn '_'

lemma segments_ne_nil : segments name ≠ [] := splitOn_ne_nil _ _

lemma eq_of_segments_eq (h : segments a = segments b) : a = b := by
  have hjoin (name : String) : ['_'].intercalate (segments name) = name.toList := intercalate_splitOn '_'
  rw [← String.toList_inj, ← hjoin a, h, hjoin]

lemma segments_joined : segments (a ++ "_" ++ b) = segments a ++ segments b := by
  unfold segments
  rw [String.toList_append, String.toList_append, append_assoc]
  exact splitOn_append_cons_self _ _

lemma segments_closed : segments (a ++ "_") = segments a ++ [[]] := by
  rw [← String.append_empty (s := a ++ "_"), segments_joined]
  rfl

lemma segments_word (h : '_' ∉ a.toList) : segments a = [a.toList] := splitOn_eq_singleton h

lemma segments_intercalate : ∀ {names}, names ≠ [] → segments ("_".intercalate names) = names.flatMap segments
  | [a], _ => by simp
  | a :: b :: names, _ => by
    rw [String.intercalate_cons_cons, segments_joined, segments_intercalate (by simp)]
    rfl

lemma withArgs_cons : Naming.withArgs name (arg :: args) = Naming.withArgs (name ++ "_" ++ "_" ++ arg) args := by
  have htwo : "__" ++ arg = "_" ++ ("_" ++ arg) := by rfl
  unfold Naming.withArgs
  rw [map_cons, String.join_cons, htwo]
  simp only [String.append_assoc]

lemma segments_withArgs :
    segments (Naming.withArgs name args) = segments name ++ args.flatMap ([] :: segments ·) := by
  induction args generalizing name with
  | nil => simp [Naming.withArgs]
  | cons arg args ih =>
    rw [withArgs_cons, ih, segments_joined, segments_closed, flatMap_cons]
    simp

/-! ## Words -/

def TyHead.word : TyHead → String
  | .error => "\x7berror\x7d"
  | .void => "void"
  | .never => "never"
  | .bool => "bool"
  | .char => "char"
  | .string => "String"
  | .int ty => ty.name
  | .float ty => ty.name
  | .named _ => ""
  | .const value => toString value
  | .vector => "vec"
  | .array => "arr"
  | .optional => "opt"
  | .tuple => "tup"
  | .view isMut => if isMut then "mut" else "ref"
  | .raw => "raw"
  | .function => "fn"

/-- The types without a declaration, apart from numbers. -/
def TyHead.plain : List TyHead :=
  [.void, .never, .bool, .char, .string, .vector, .array, .optional, .tuple, .view true, .view false,
    .raw, .function] ++ IntTy.all.map .int ++ [.float .f32, .float .f64]

def TyHead.ofWord? (word : List Char) : Option TyHead :=
  if word.all Char.isDigit && !word.isEmpty then some (.const (Nat.ofDigitChars 10 word 0))
  else plain.find? fun head => head.word.toList == word

lemma toList_toString : (toString n).toList = Nat.toDigits 10 n := Nat.toList_repr

variable {head : TyHead}

lemma TyHead.ofWord?_word (herror : head ≠ .error)
    (hnamed : ∀ decl, head ≠ .named decl) : ofWord? head.word.toList = some head := by
  cases head with
  | error => exact absurd rfl herror
  | named decl => exact absurd rfl (hnamed decl)
  | const value =>
    have hdigits : (Nat.toDigits 10 value).all Char.isDigit :=
      all_eq_true.2 fun c hc => Nat.isDigit_of_mem_toDigits (by decide) (by decide) hc
    unfold ofWord? word
    rw [toList_toString, hdigits, isEmpty_eq_false_iff.2 Nat.toDigits_ne_nil]
    simp
  | int ty | float ty => cases ty <;> rfl
  | view isMut => cases isMut <;> rfl
  | _ => rfl

lemma TyHead.segments_word : segments head.word = [head.word.toList] := by
  refine Kite.segments_word ?_
  cases head with
  | const value =>
    show '_' ∉ (toString value).toList
    rw [toList_toString]
    intro h
    exact absurd (Nat.isDigit_of_mem_toDigits (by decide) (by decide) h) (by decide)
  | int ty | float ty => cases ty <;> decide
  | view isMut => cases isMut <;> decide
  | named decl => exact not_mem_nil
  | _ => decide

/-! ## Trees that are types -/

/-- Whether a type with the head has parts. The arguments of a declared type are counted elsewhere. -/
def TyHead.takes : TyHead → Nat → Bool
  | .error, _ | .named _, _ => true
  | .vector, arity | .array, arity | .optional, arity | .tuple, arity | .view _, arity | .raw, arity
  | .function, arity => arity != 0
  | .void, arity | .never, arity | .bool, arity | .char, arity | .string, arity | .int _, arity
  | .float _, arity | .const _, arity => arity == 0

def Program.declaresType (p : Program) (decl : DefId) : Bool :=
  match (p.getDef decl).kind with
  | .struct _ | .enum _ => true
  | _ => false

def Program.typeDecls (p : Program) : List DefId := ((List.range p.defs.size).map DefId.mk).filter p.declaresType

variable {p : Program}

lemma mem_typeDecls (h : p.declaresType decl) : decl ∈ p.typeDecls := by
  refine mem_filter.2 ⟨mem_map.2 ⟨decl.index, mem_range.2 ?_, rfl⟩, h⟩
  refine Decidable.byContradiction fun hno => ?_
  unfold declaresType at h
  rw [getDef_eq_default (Nat.le_of_not_lt hno)] at h
  cases h

lemma makesType_named :
    p.makesType (.named decl) arity = (p.declaresType decl && arity == (p.genericsOf decl).length) := by
  unfold makesType declaresType genericsOf
  dsimp only
  cases (p.getDef decl).kind <;> rfl

lemma mem_typeDecls_of_makesType (h : p.makesType (.named decl) arity) : decl ∈ p.typeDecls := by
  rw [makesType_named, and_eq_true] at h
  exact mem_typeDecls h.1

lemma TyHead.takes_zero_iff (hm : p.makesType head m) (htakes : head.takes m)
    (hk : p.makesType head k) (htakes' : head.takes k) : m = 0 ↔ k = 0 := by
  cases head with
  | error => cases hm
  | named decl =>
    rw [makesType_named, and_eq_true, beq_iff_eq] at hm hk
    rw [hm.2, hk.2]
  | _ => simp_all [takes]

namespace Ty

mutual

/-- Whether exactly the compounds have parts. -/
def formed : Ty → Bool
  | .param _ => true
  | .node head parts => head.takes parts.length && formedAll parts

def formedAll : List Ty → Bool
  | [] => true
  | t :: ts => t.formed && formedAll ts

end

lemma formedAll_iff : formedAll ts ↔ ∀ t ∈ ts, t.formed := by
  induction ts with
  | nil => simp [formedAll]
  | cons t ts ih => rw [formedAll, and_eq_true, ih, forall_mem_cons]

/-- A type that is spelled out: nothing in it is open. -/
structure Ground (p : Program) (t : Ty) : Prop where
  proper : t.proper p []
  formed : t.formed

namespace Ground

variable {p : Program} {head : TyHead} {parts : List Ty}

lemma exists_node (h : Ground p t) : ∃ head parts, t = .node head parts := by
  cases t with
  | param id => exact absurd h.proper (by simp [Ty.proper])
  | node head parts => exact ⟨head, parts, rfl⟩

lemma part (h : Ground p (.node head parts)) (ht : t ∈ parts) : Ground p t := by
  have hproper := h.proper
  have hformed := h.formed
  rw [Ty.proper, and_eq_true, properAll_iff] at hproper
  rw [Ty.formed, and_eq_true, formedAll_iff] at hformed
  exact ⟨hproper.2 t ht, hformed.2 t ht⟩

lemma makesType (h : Ground p (.node head parts)) : p.makesType head parts.length := by
  have hproper := h.proper
  rw [Ty.proper, and_eq_true] at hproper
  exact hproper.1

lemma isEmpty_eq (h : Ground p (.node head parts))
    (h' : Ground p (.node head others)) : parts.isEmpty = others.isEmpty := by
  have hformed := h.formed
  have hformed' := h'.formed
  rw [Ty.formed, and_eq_true] at hformed hformed'
  have hzero := TyHead.takes_zero_iff h.makesType hformed.1 h'.makesType hformed'.1
  rw [length_eq_zero_iff, length_eq_zero_iff] at hzero
  rw [Bool.eq_iff_iff, List.isEmpty_iff, List.isEmpty_iff]
  exact hzero

end Ground

end Ty

/-! ## Spellings -/

namespace Naming

section Spelling

variable (n : Naming) (p : Program)

def opening : TyHead → Segments
  | .named decl => segments (n.base p decl)
  | head => [head.word.toList]

/-- A function type without parameters has an empty segment in their place. -/
def gap : TyHead → List Ty → Segments
  | .function, [_] => [[]]
  | _, _ => []

mutual

def spelling : Ty → Segments
  | .param _ => []
  | .node head parts => n.opening p head ++ if parts.isEmpty then [] else gap head parts ++ (spellings parts ++ [[]])

def spellings : List Ty → Segments
  | [] => []
  | t :: ts => spelling t ++ spellings ts

end

def tagged (ts : List Ty) : Segments := ts.flatMap fun t => [] :: n.spelling p t

/-- What makes names readable. Here `declared` are the declarations whose names others begin with. -/
@[mk_iff]
structure Readable (declared : List DefId) : Prop where
  types : ∀ t ∈ p.typeDecls, t ∈ declared
  /-- No declared name begins with the word of a type. -/
  words : ∀ d ∈ declared, ∀ word ∈ (segments (n.base p d)).head?, TyHead.ofWord? word = none
  types_apart : ∀ t ∈ p.typeDecls, ∀ d ∈ declared, segments (n.base p t) <+: segments (n.base p d) → t = d
  /-- The name of a declared type does not begin with a `_`. -/
  types_open : ∀ t ∈ p.typeDecls, (segments (n.base p t)).head? ≠ some []
  apart : ∀ d ∈ declared, ∀ e ∈ declared, n.base p d = n.base p e → d = e
  /-- No declared name goes on like another one with arguments. -/
  args_apart : ∀ d ∈ declared, ∀ e ∈ declared, ¬ segments (n.base p d) ++ [[]] <+: segments (n.base p e)

end Spelling

section Reading

variable {n : Naming} {p : Program} {declared : List DefId}

lemma opening_named : n.opening p (.named decl) = segments (n.base p decl) := rfl

lemma opening_of_not_named (h : ∀ decl, head ≠ .named decl) : n.opening p head = [head.word.toList] := by
  cases head with
  | named decl => exact absurd rfl (h decl)
  | _ => rfl

lemma ofWord?_word_of_makesType (hmakes : p.makesType head arity)
    (h : ∀ decl, head ≠ .named decl) : ofWord? head.word.toList = some head := by
  refine ofWord?_word (fun herror => ?_) h
  rw [herror] at hmakes
  cases hmakes

/-- Segments that do not start with an empty one. -/
def Opens (x : Segments) : Prop := ∃ c word rest, x = (c :: word) :: rest

lemma Opens.append (h : Opens x) (y : Segments) : Opens (x ++ y) := by
  obtain ⟨c, word, rest, rfl⟩ := h
  exact ⟨c, word, rest ++ y, rfl⟩

lemma not_opens_nil : ¬ Opens ([] :: x) := by
  rintro ⟨c, word, rest, h⟩
  cases h

lemma gap_eq (head : TyHead) : gap head ts = [] ∨ gap head ts = [[]] := by
  unfold gap
  split
  · exact .inr rfl
  · exact .inl rfl

namespace Readable

variable (hread : Readable n p declared)
include hread

lemma eq_of_opening_prefix (hmakes : p.makesType head arity)
    (hd : d ∈ declared) (h : n.opening p head <+: segments (n.base p d)) : head = .named d := by
  by_cases hnamed : ∃ decl, head = .named decl
  · obtain ⟨t, rfl⟩ := hnamed
    have ht := mem_typeDecls_of_makesType hmakes
    rw [hread.types_apart t ht d hd h]
  · have hnamed' : ∀ decl, head ≠ .named decl := fun decl heq => hnamed ⟨decl, heq⟩
    rw [opening_of_not_named hnamed'] at h
    have hword := hread.words d hd head.word.toList (by
      obtain ⟨rest, hrest⟩ := h
      rw [← hrest]
      rfl)
    rw [ofWord?_word_of_makesType hmakes hnamed'] at hword
    cases hword

lemma head_eq_of_prefix {a b : TyHead} (ha : p.makesType a arity)
    (hb : p.makesType b arity') (h : n.opening p a <+: n.opening p b) : a = b := by
  by_cases hnamed : ∃ decl, b = .named decl
  · obtain ⟨t, rfl⟩ := hnamed
    exact hread.eq_of_opening_prefix ha (hread.types t (mem_typeDecls_of_makesType hb)) h
  · have hb' : ∀ decl, b ≠ .named decl := fun decl heq => hnamed ⟨decl, heq⟩
    have hbword := ofWord?_word_of_makesType hb hb'
    rw [opening_of_not_named hb'] at h
    by_cases hnamed' : ∃ decl, a = .named decl
    · obtain ⟨t, rfl⟩ := hnamed'
      have ht := mem_typeDecls_of_makesType ha
      have hword := hread.words t (hread.types t ht) b.word.toList (by
        obtain ⟨seg, rest, hseg⟩ := exists_cons_of_ne_nil segments_ne_nil
        rw [opening_named, hseg] at h
        rw [hseg]
        rw [(cons_prefix_cons.1 h).1]
        rfl)
      rw [hbword] at hword
      cases hword
    · have ha' : ∀ decl, a ≠ .named decl := fun decl heq => hnamed' ⟨decl, heq⟩
      rw [opening_of_not_named ha'] at h
      have hword := ofWord?_word_of_makesType ha ha'
      rw [(cons_prefix_cons.1 h).1, hbword] at hword
      exact (Option.some.inj hword).symm

lemma opening_append_inj {a b : TyHead} (ha : p.makesType a arity) (hb : p.makesType b arity')
    (h : n.opening p a ++ x = n.opening p b ++ y) : a = b ∧ x = y := by
  have hab : a = b := by
    have hpre := h ▸ prefix_append _ _
    rcases prefix_or_prefix_of_prefix hpre (prefix_append _ _) with hle | hle
    · exact hread.head_eq_of_prefix ha hb hle
    · exact (hread.head_eq_of_prefix hb ha hle).symm
  subst hab
  exact ⟨rfl, append_cancel_left h⟩

lemma opens_opening (hmakes : p.makesType head arity) : Opens (n.opening p head) := by
  by_cases hnamed : ∃ decl, head = .named decl
  · obtain ⟨t, rfl⟩ := hnamed
    have ht := mem_typeDecls_of_makesType hmakes
    obtain ⟨seg, rest, hseg⟩ := exists_cons_of_ne_nil segments_ne_nil
    have hopen := hread.types_open t ht
    show Opens (segments (n.base p t))
    rw [hseg] at hopen ⊢
    cases seg with
    | nil => exact absurd rfl hopen
    | cons c word => exact ⟨c, word, rest, rfl⟩
  · have hnamed' : ∀ decl, head ≠ .named decl := fun decl heq => hnamed ⟨decl, heq⟩
    have hword := ofWord?_word_of_makesType hmakes hnamed'
    rw [opening_of_not_named hnamed']
    cases hlist : head.word.toList with
    | nil =>
      rw [hlist] at hword
      cases hword
    | cons c word => exact ⟨c, word, [], rfl⟩

lemma opens_spelling (ht : t.Ground p) : Opens (n.spelling p t) := by
  obtain ⟨head, parts, rfl⟩ := ht.exists_node
  exact (hread.opens_opening ht.makesType).append _

lemma opens_spellings (hts : ∀ t ∈ ts, t.Ground p) (hne : ts ≠ []) : Opens (n.spellings p ts) := by
  cases ts with
  | nil => exact absurd rfl hne
  | cons t ts => exact (hread.opens_spelling (hts t (.head _))).append _

lemma gap_append_inj (hts : ∀ t ∈ ts, t.Ground p) (hus : ∀ u ∈ us, u.Ground p) (ht : ts ≠ [])
    (hu : us ≠ []) (h : gap head ts ++ (n.spellings p ts ++ x) = gap head us ++ (n.spellings p us ++ y)) :
    n.spellings p ts ++ x = n.spellings p us ++ y := by
  have htopens := (hread.opens_spellings hts ht).append x
  have huopens := (hread.opens_spellings hus hu).append y
  rcases gap_eq head with hgap | hgap <;> rcases gap_eq head with hgap' | hgap' <;> rw [hgap, hgap'] at h
  · exact h
  · rw [nil_append] at h
    rw [h] at htopens
    exact absurd htopens not_opens_nil
  · rw [nil_append] at h
    rw [← h] at huopens
    exact absurd huopens not_opens_nil
  · exact append_cancel_left h

mutual

/-- No spelling of a type is the beginning of another one. -/
theorem spelling_append_inj : ∀ {t u}, t.Ground p → u.Ground p → ∀ {x y},
    n.spelling p t ++ x = n.spelling p u ++ y → t = u ∧ x = y
  | .param _, _, ht, _, _, _, _ => absurd ht.proper (by simp [Ty.proper])
  | .node _ _, .param _, _, hu, _, _, _ => absurd hu.proper (by simp [Ty.proper])
  | .node a ts, .node b us, ht, hu, x, y, h => by
    rw [spelling, spelling, append_assoc, append_assoc] at h
    obtain ⟨rfl, hrest⟩ := hread.opening_append_inj ht.makesType hu.makesType h
    -- The head is the same, so both have parts or neither has.
    have hempty := ht.isEmpty_eq hu
    cases hts : ts.isEmpty with
    | true =>
      rw [hts] at hempty hrest
      rw [← hempty] at hrest
      rw [List.isEmpty_iff.1 hts, List.isEmpty_iff.1 hempty.symm]
      exact ⟨rfl, hrest⟩
    | false =>
      rw [hts] at hempty hrest
      rw [← hempty] at hrest
      simp only [false_eq_true, if_false, append_assoc] at hrest
      have hparts := hread.gap_append_inj (fun t h => ht.part h) (fun u h => hu.part h)
        (isEmpty_eq_false_iff.1 hts) (isEmpty_eq_false_iff.1 hempty.symm) hrest
      obtain ⟨rfl, hxy⟩ := spellings_append_inj (fun t h => ht.part h) (fun u h => hu.part h) hparts
      exact ⟨rfl, hxy⟩

/-- The parts of a compound end at the first empty segment. -/
theorem spellings_append_inj : ∀ {ts us}, (∀ t ∈ ts, t.Ground p) →
    (∀ u ∈ us, u.Ground p) → ∀ {x y},
    n.spellings p ts ++ [] :: x = n.spellings p us ++ [] :: y → ts = us ∧ x = y
  | [], [], _, _, _, _, h => ⟨rfl, (List.cons.inj h).2⟩
  | [], u :: us, _, hus, _, y, h => by
    have hopens := (hread.opens_spellings hus (cons_ne_nil u us)).append ([] :: y)
    rw [← h] at hopens
    exact absurd hopens not_opens_nil
  | t :: ts, [], hts, _, x, _, h => by
    have hopens := (hread.opens_spellings hts (cons_ne_nil t ts)).append ([] :: x)
    rw [h] at hopens
    exact absurd hopens not_opens_nil
  | t :: ts, u :: us, hts, hus, x, y, h => by
    rw [spellings, spellings, append_assoc, append_assoc] at h
    obtain ⟨rfl, hrest⟩ := spelling_append_inj (hts t (.head _)) (hus u (.head _)) h
    obtain ⟨rfl, hxy⟩ := spellings_append_inj (fun t h => hts t (.tail _ h)) (fun u h => hus u (.tail _ h)) hrest
    exact ⟨rfl, hxy⟩

end

end Readable

end Reading

end Naming

end Kite
