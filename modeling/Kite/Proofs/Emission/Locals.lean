/-
The names of locals. A local whose name is taken already is told apart by its index; two locals
still share a name where one is spelled like the other with its index. A local begins with the word
of its own name, so it hides no declaration whose emitted name begins with another word.
-/
import Kite.Emission.Output
import Kite.Proofs.Instance.Names

namespace Kite.Emission

open List TyHead

variable {locals : List Typed.Local} {i j : Nat} {l k : Typed.Local} {name : String} {n : Naming} {p : Program}

/-- Whether an earlier local has the same name before clashes are resolved. -/
def Repeats (locals : List Typed.Local) (i : Nat) (l : Typed.Local) : Prop :=
  localBase l.name ∈ (locals.take i).map (localBase ·.name)

instance : Decidable (Repeats locals i l) := inferInstanceAs (Decidable (_ ∈ _))

def numbered (l : Typed.Local) (i : Nat) : String := localBase l.name ++ "_" ++ toString i

lemma getElem?_localNames (h : locals[i]? = some l) :
    (localNames locals)[i]? = some (if Repeats locals i l then numbered l i else localBase l.name) := by
  unfold localNames
  simp only [getElem?_map, getElem?_zipIdx, h, Option.map_some, Nat.zero_add]
  rw [← map_take]
  simp only [contains_iff_mem]
  rfl

lemma segments_numbered : segments (numbered l i) = segments (localBase l.name) ++ [(toString i).toList] := by
  rw [numbered, segments_joined]
  exact congrArg _ (show segments (TyHead.const i).word = _ from TyHead.segments_word)

lemma numbered_inj (h : numbered l i = numbered k j) : i = j := by
  have hsegments := congrArg segments h
  rw [segments_numbered, segments_numbered] at hsegments
  have hdigits := (append_inj' hsegments rfl).2
  have hword : ofWord? (const i).word.toList = some (.const i) := ofWord?_word (by simp) (by simp)
  rw [show (const i).word.toList = (const j).word.toList from (List.cons.inj hdigits).1,
    ofWord?_word (by simp) (by simp)] at hword
  cases hword
  rfl

/-! ## Reserved names -/

lemma reserved_ends : ∀ r ∈ reserved, (segments r).getLast?.any (·.all Char.isDigit) = false := by decide

lemma escapeIdent_not_reserved : escapeIdent name ∉ reserved := by
  unfold escapeIdent
  split
  · intro h
    have hend := reserved_ends _ h
    rw [segments_closed, getLast?_concat] at hend
    cases hend
  · rename_i h
    simp only [Bool.or_eq_true, contains_iff_mem, not_or] at h
    exact h.1

lemma numbered_not_reserved : numbered l i ∉ reserved := by
  intro h
  have hend := reserved_ends _ h
  have hdigits : (Nat.toDigits 10 i).all Char.isDigit :=
    all_eq_true.2 fun c hc => Nat.isDigit_of_mem_toDigits (by decide) (by decide) hc
  rw [segments_numbered, getLast?_concat, Option.any_some, toList_toString, hdigits] at hend
  cases hend

lemma localBase_mem_reserved : localBase name ∈ reserved ↔ name = "this" := by
  unfold localBase
  split
  · rename_i h
    exact iff_of_true (by decide) (by simpa using h)
  · rename_i h
    exact iff_of_false escapeIdent_not_reserved (by simpa using h)

/-! ## Names of locals -/

/-- Two locals share a name exactly where one of them is told apart by its index and the other is
spelled like that. A name is reserved only where it is that of the receiver. -/
theorem localNames_distinct (locals : List Typed.Local) :
    (∀ i j l k, i < j → locals[i]? = some l → locals[j]? = some k →
      ((localNames locals)[i]? = (localNames locals)[j]? ↔
        ¬ Repeats locals i l ∧ Repeats locals j k ∧ localBase l.name = numbered k j ∨
          Repeats locals i l ∧ ¬ Repeats locals j k ∧ localBase k.name = numbered l i)) ∧
    ∀ i l name, locals[i]? = some l → (localNames locals)[i]? = some name →
      (name ∈ reserved ↔ l.name = "this" ∧ ¬ Repeats locals i l) := by
  constructor
  · intro i j l k hij hi hj
    rw [getElem?_localNames hi, getElem?_localNames hj, Option.some.injEq]
    have hne : ¬ Repeats locals j k → localBase l.name ≠ localBase k.name := by
      intro hk heq
      refine hk (mem_map.2 ⟨l, mem_of_getElem? (i := i) ?_, heq⟩)
      rw [getElem?_take_of_lt hij, hi]
    have hnumber : numbered l i ≠ numbered k j := fun h => Nat.ne_of_lt hij (numbered_inj h)
    by_cases hl : Repeats locals i l <;> by_cases hk : Repeats locals j k <;> simp [hl, hk, hne, hnumber, eq_comm]
  · intro i l name hi hname
    rw [getElem?_localNames hi, Option.some.injEq] at hname
    subst hname
    split
    · rename_i hrepeats
      exact iff_of_false numbered_not_reserved fun h => h.2 hrepeats
    · rename_i hrepeats
      rw [localBase_mem_reserved]
      exact (and_iff_left hrepeats).symm

def localOf (name : String) : Typed.Local := { (default : Typed.Local) with name }

/-- Of two locals of one name the second is told apart, and the receiver keeps its name. -/
theorem localNames_distinct_shadowed :
    (localNames [localOf "this", localOf "x", localOf "x"])[1]?
        ≠ (localNames [localOf "this", localOf "x", localOf "x"])[2]? ∧
      "self" ∈ localNames [localOf "this", localOf "x", localOf "x"] := by
  obtain ⟨hclash, -⟩ := localNames_distinct [localOf "this", localOf "x", localOf "x"]
  refine ⟨fun h => absurd ((hclash 1 2 _ _ (by decide) rfl rfl).1 h) (by decide), by decide⟩

/-- A local that is spelled like another one with its index. -/
theorem numbered_name_taken : localNames [localOf "x", localOf "x", localOf "x_1"] = ["x", "x_1", "x_1"] := by decide

/-! ## Declarations -/

def leadWord (name : String) : Option (List Char) := (segments name).head?

lemma leadWord_eq (h : segments a = segments b ++ rest) : leadWord a = leadWord b := by
  rw [leadWord, leadWord, h]
  cases hb : segments b with
  | nil => exact absurd hb segments_ne_nil
  | cons word words => rfl

lemma leadWord_escapeIdent : leadWord (escapeIdent name) = leadWord name := by
  unfold escapeIdent
  split
  · exact leadWord_eq segments_closed
  · rfl

def localWord (name : String) : Option (List Char) := if name == "this" then leadWord "self" else leadWord name

lemma leadWord_localBase : leadWord (localBase name) = localWord name := by
  unfold localBase localWord
  split
  · rfl
  · exact leadWord_escapeIdent

lemma not_mem_localNames (h : ∀ l ∈ locals, localWord l.name ≠ leadWord name) : name ∉ localNames locals := by
  intro hmem
  obtain ⟨i, hi⟩ := mem_iff_getElem?.1 hmem
  have hlt : i < locals.length := by
    have := (List.getElem?_eq_some_iff.1 hi).1
    simpa [localNames] using this
  have hl := getElem?_eq_getElem hlt
  refine h locals[i] (getElem_mem hlt) ?_
  rw [getElem?_localNames hl, Option.some.injEq] at hi
  rw [← hi, ← leadWord_localBase]
  split
  · exact (leadWord_eq segments_joined).symm
  · rfl

def declWord (n : Naming) (p : Program) (id : DefId) : Option (List Char) :=
  let d := p.getDef id
  if d.unit == n.entry then
    if d.name == "main" && (p.function? id).isSome then leadWord Naming.start else leadWord d.name
  else leadWord (p.unitName d.unit)

lemma leadWord_base {id : DefId} : leadWord (n.base p id) = declWord n p id := by
  unfold Naming.base declWord
  dsimp only
  split
  · split
    · rfl
    · exact leadWord_escapeIdent
  · exact leadWord_eq segments_joined

lemma leadWord_typeNameWith {id : TypeId} (h : p.types.shape id = .named d name args) :
    leadWord (n.typeNameWith p s id) = declWord n p d := by
  rw [Naming.typeNameWith, h, ← leadWord_base]
  exact leadWord_eq segments_withArgs

/-- A type that is neither declared nor a parameter is spelled from the word of its head. -/
lemma leadWord_builtin {id : TypeId} (hparam : ∀ q name, p.types.shape id ≠ .param q name)
    (hnamed : ∀ d name args, p.types.shape id ≠ .named d name args) :
    leadWord (n.typeNameWith p s id) = some (p.types.shape id).head.word.toList := by
  have hword (head : TyHead) : leadWord head.word = some head.word.toList := by
    rw [leadWord, TyHead.segments_word]
    rfl
  have hopen (head : TyHead) (rest : String) : leadWord (head.word ++ "_" ++ rest) = some head.word.toList :=
    (leadWord_eq segments_joined).trans (hword head)
  have hone (head : TyHead) (part : String) : leadWord (head.word ++ "_" ++ part ++ "_") = some head.word.toList :=
    (leadWord_eq segments_closed).trans (hopen head part)
  have htwo (head : TyHead) (part rest : String) :
      leadWord (head.word ++ "_" ++ part ++ "_" ++ rest ++ "_") = some head.word.toList :=
    (leadWord_eq segments_closed).trans ((leadWord_eq segments_joined).trans (hopen head part))
  unfold Naming.typeNameWith Naming.fragmentWith
  rw [Naming.fragmentFrom]
  cases hshape : p.types.shape id with
  | param q name => exact absurd hshape (hparam q name)
  | named d name args => exact absurd hshape (hnamed d name args)
  | vector _ => exact hone .vector _
  | array _ _ => exact htwo .array _ _
  | optional _ => exact hone .optional _
  | tuple _ => exact hone .tuple _
  | view isMut _ =>
    cases isMut with
    | false => exact hone (.view false) _
    | true => exact hone (.view true) _
  | raw _ => exact hone .raw _
  | function _ _ => exact htwo .function _ _
  | _ =>
    dsimp only
    rw [Naming.display_of_leaf (by simp [hshape]) hparam hnamed (by simp [hshape]), hword, hshape]

/-- Where no local begins with the word of a declaration, none hides it: neither the declaration
itself nor its instances, the types made of it or the methods of those types. A foreign function has
the name it was declared with, and a method of a type that is not declared begins with the word of
that type. -/
theorem locals_hide_nothing (n : Naming) (p : Program) (locals : List Typed.Local) (d : DefId)
    (h : ∀ l ∈ locals, localWord l.name ≠ declWord n p d) :
    n.base p d ∉ localNames locals ∧
    (∀ id name args, p.types.shape id = .named d name args → n.typeName p id ∉ localNames locals) ∧
    (∀ f args, p.function? d = some f → (f.isForeign = true → ∀ l ∈ locals, localWord l.name ≠ leadWord (p.defName d)) →
      f.owner.bind (p.impls[·]?) = none → n.functionName p d args ∉ localNames locals) ∧
    (∀ m f impl name types args, p.function? m = some f → f.isForeign = false →
      f.owner.bind (p.impls[·]?) = some impl → p.types.shape impl.target = .named d name types →
      n.functionName p m args ∉ localNames locals) ∧
    ∀ m f impl args, p.function? m = some f → f.isForeign = false → f.owner.bind (p.impls[·]?) = some impl →
      (∀ q name, p.types.shape impl.target ≠ .param q name) →
      (∀ e name types, p.types.shape impl.target ≠ .named e name types) →
      (∀ l ∈ locals, localWord l.name ≠ some (p.types.shape impl.target).head.word.toList) →
      n.functionName p m args ∉ localNames locals := by
  have hhides {name : String} (hword : leadWord name = declWord n p d) : name ∉ localNames locals :=
    not_mem_localNames (hword ▸ h)
  have hmethod {m f impl args} (hf : p.function? m = some f) (hforeign : f.isForeign = false)
      (howner : f.owner.bind (p.impls[·]?) = some impl) : leadWord (n.functionName p m args) =
        leadWord (n.typeNameWith p (Program.bindings impl.generics args) impl.target) := by
    unfold Naming.functionName
    rw [hf]
    dsimp only
    rw [hforeign, howner]
    exact (leadWord_eq segments_withArgs).trans (leadWord_eq segments_joined)
  refine ⟨hhides leadWord_base, ?_, ?_, ?_, ?_⟩
  · intro id name args hshape
    exact hhides (leadWord_typeNameWith hshape)
  · intro f args hf hforeign howner
    unfold Naming.functionName
    rw [hf]
    dsimp only
    split
    · rename_i hisForeign
      exact not_mem_localNames (hforeign hisForeign)
    · rw [howner]
      exact hhides ((leadWord_eq segments_withArgs).trans leadWord_base)
  · intro m f impl name types args hf hforeign howner hshape
    exact hhides ((hmethod hf hforeign howner).trans (leadWord_typeNameWith hshape))
  · intro m f impl args hf hforeign howner hparam hnamed hwords
    rw [← leadWord_builtin hparam hnamed, ← hmethod hf hforeign howner] at hwords
    exact not_mem_localNames hwords

def programWith (name : String) : Program := { defs := #[⟨name, ⟨0⟩, default, .function default⟩] }

/-- The locals `x` and `x_1` do not hide the function `f`. -/
theorem locals_hide_nothing_function :
    (∀ l ∈ [localOf "x", localOf "x_1"], localWord l.name ≠ declWord ⟨⟨0⟩⟩ (programWith "f") ⟨0⟩) ∧
    Naming.functionName ⟨⟨0⟩⟩ (programWith "f") ⟨0⟩ [] ∉ localNames [localOf "x", localOf "x_1"] := by
  have hwords : ∀ l ∈ [localOf "x", localOf "x_1"], localWord l.name ≠ declWord ⟨⟨0⟩⟩ (programWith "f") ⟨0⟩ := by decide
  exact ⟨hwords, (locals_hide_nothing ⟨⟨0⟩⟩ (programWith "f") _ ⟨0⟩ hwords).2.2.1 default [] rfl (fun h => by cases h) rfl⟩

/-- A local with the name of the function that it is set from hides it. -/
theorem local_hides_function : Naming.functionName ⟨⟨0⟩⟩ (programWith "f") ⟨0⟩ [] ∈ localNames [localOf "f"] := by
  decide

end Kite.Emission
