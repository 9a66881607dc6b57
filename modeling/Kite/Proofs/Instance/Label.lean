/-
What the name of an emitted declaration is made of: a declaration with types for its generics, or a
method with the type it belongs to. In a program whose names are readable, the segments of a name
tell all of it.
-/
import Kite.Proofs.Instance.Spelling

namespace Kite

open Naming List

variable {ts us : List Ty} {d : DefId} {isNamed : Bool} {t : Ty}

inductive Label where
  | declared (decl : DefId) (args : List Ty)
  /-- The receiver is spelled like an argument, or named like a declared type. -/
  | method (receiver : Ty) (isNamed : Bool) (name : String) (args : List Ty)

namespace Naming

section Segments

variable (n : Naming) (p : Program)

/-- What follows the opening of a receiver: parts in the form of arguments, or as in a spelling. -/
def receiverParts : Bool → TyHead → List Ty → Segments
  | true, _, parts => n.tagged p parts
  | false, head, parts => if parts.isEmpty then [] else gap head parts ++ (n.spellings p parts ++ [[]])

def receiverSegments (isNamed : Bool) : Ty → Segments
  | .param _ => []
  | .node head parts => n.opening p head ++ n.receiverParts p isNamed head parts

def labelSegments : Label → Segments
  | .declared decl args => segments (n.base p decl) ++ n.tagged p args
  | .method receiver isNamed name args => n.receiverSegments p isNamed receiver ++ (segments name ++ n.tagged p args)

end Segments

variable {n : Naming} {p : Program} {declared : List DefId}

lemma tagged_cons : n.tagged p (t :: ts) = [] :: (n.spelling p t ++ n.tagged p ts) := rfl

lemma tagged_eq (ts : List Ty) : n.tagged p ts = [] ∨ ∃ rest, n.tagged p ts = [] :: rest := by
  cases ts with
  | nil => exact .inl rfl
  | cons t ts => exact .inr ⟨_, tagged_cons⟩

lemma not_opens_tagged (ts : List Ty) : ¬ Opens (n.tagged p ts) := by
  rcases tagged_eq ts with h | ⟨rest, h⟩
  · rw [h]
    rintro ⟨c, word, rest, heq⟩
    cases heq
  · rw [h]
    exact not_opens_nil

lemma segments_append_inj (hxs : [] ∉ xs) (hys : [] ∉ ys)
    (h : xs ++ n.tagged p ts = ys ++ n.tagged p us) : xs = ys ∧ n.tagged p ts = n.tagged p us := by
  induction xs generalizing ys with
  | nil =>
    cases ys with
    | nil => exact ⟨rfl, h⟩
    | cons y ys =>
      rcases tagged_eq (n := n) (p := p) ts with hts | ⟨rest, hts⟩
      · rw [hts] at h
        cases h
      · rw [nil_append, hts] at h
        exact absurd ((List.cons.inj h).1 ▸ mem_cons_self) hys
  | cons x xs ih =>
    cases ys with
    | nil =>
      rcases tagged_eq (n := n) (p := p) us with hus | ⟨rest, hus⟩
      · rw [hus] at h
        cases h
      · rw [nil_append, hus] at h
        exact absurd ((List.cons.inj h).1 ▸ mem_cons_self) hxs
    | cons y ys =>
      obtain ⟨rfl, hrest⟩ := List.cons.inj h
      obtain ⟨rfl, htagged⟩ := ih (fun hmem => hxs (.tail _ hmem)) (fun hmem => hys (.tail _ hmem)) hrest
      exact ⟨rfl, htagged⟩

lemma opens_segments (h : [] ∉ segments name) : Opens (segments name) := by
  obtain ⟨seg, rest, hseg⟩ := exists_cons_of_ne_nil segments_ne_nil
  rw [hseg] at h ⊢
  cases seg with
  | nil => exact absurd (.head _) h
  | cons c word => exact ⟨c, word, rest, rfl⟩

lemma spelling_eq_receiverSegments : n.spelling p t = n.receiverSegments p false t := by
  cases t with
  | param id => rw [spelling, receiverSegments]
  | node head parts => rfl

/-- A type that methods can belong to. Only a declared type is named like one. -/
structure IsReceiver (p : Program) (isNamed : Bool) (t : Ty) : Prop where
  ground : t.Ground p
  named : isNamed → ∃ decl args, t = .node (.named decl) args

namespace Readable

variable (hread : Readable n p declared)
include hread

lemma tagged_append_inj (hts : ∀ t ∈ ts, t.Ground p) (hus : ∀ u ∈ us, u.Ground p) (hx : x = [] ∨ Opens x)
    (hy : y = [] ∨ Opens y) (h : n.tagged p ts ++ x = n.tagged p us ++ y) : ts = us ∧ x = y := by
  induction ts generalizing us with
  | nil =>
    cases us with
    | nil => exact ⟨rfl, h⟩
    | cons u us =>
      have h' : x = [] :: (n.spelling p u ++ n.tagged p us ++ y) := h
      rcases hx with hx | hx
      · rw [hx] at h'
        cases h'
      · rw [h'] at hx
        exact absurd hx not_opens_nil
  | cons t ts ih =>
    cases us with
    | nil =>
      have h' : [] :: (n.spelling p t ++ n.tagged p ts ++ x) = y := h
      rcases hy with hy | hy
      · rw [hy] at h'
        cases h'
      · rw [← h'] at hy
        exact absurd hy not_opens_nil
    | cons u us =>
      rw [tagged_cons, tagged_cons, cons_append, cons_append, append_assoc, append_assoc] at h
      obtain ⟨rfl, hrest⟩ := hread.spelling_append_inj (hts t (.head _)) (hus u (.head _)) (List.cons.inj h).2
      obtain ⟨rfl, hxy⟩ := ih (fun t h => hts t (.tail _ h)) (fun u h => hus u (.tail _ h)) hrest
      exact ⟨rfl, hxy⟩

lemma tagged_inj (hts : ∀ t ∈ ts, t.Ground p) (hus : ∀ u ∈ us, u.Ground p)
    (h : n.tagged p ts = n.tagged p us) : ts = us := by
  refine (hread.tagged_append_inj hts hus (x := []) (y := []) (.inl rfl) (.inl rfl) ?_).1
  rw [append_nil, append_nil, h]

/-! ## Declarations -/

lemma eq_of_base_prefix (hd : d ∈ declared) (he : e ∈ declared)
    (h : segments (n.base p d) ++ n.tagged p ts = segments (n.base p e) ++ y)
    (hpre : segments (n.base p d) <+: segments (n.base p e)) : d = e := by
  obtain ⟨z, hz⟩ := hpre
  rw [← hz, append_assoc] at h
  have hrest := append_cancel_left h
  cases z with
  | nil =>
    rw [append_nil] at hz
    exact hread.apart d hd e he (eq_of_segments_eq hz)
  | cons seg z =>
    rcases tagged_eq (n := n) (p := p) ts with hts | ⟨rest, hts⟩
    · rw [hts] at hrest
      cases hrest
    · rw [hts] at hrest
      have hseg : [] = seg := (List.cons.inj hrest).1
      refine absurd ⟨z, ?_⟩ (hread.args_apart d hd e he)
      rw [append_assoc, ← hz, hseg]
      rfl

lemma declared_inj (hd : d ∈ declared) (he : e ∈ declared) (hts : ∀ t ∈ ts, t.Ground p) (hus : ∀ u ∈ us, u.Ground p)
    (h : segments (n.base p d) ++ n.tagged p ts = segments (n.base p e) ++ n.tagged p us) : d = e ∧ ts = us := by
  have hde : d = e := by
    have hpre := h ▸ prefix_append _ _
    rcases prefix_or_prefix_of_prefix hpre (prefix_append _ _) with hle | hle
    · exact hread.eq_of_base_prefix hd he h hle
    · exact (hread.eq_of_base_prefix he hd h.symm hle).symm
  subst hde
  exact ⟨rfl, hread.tagged_inj hts hus (append_cancel_left h)⟩

/-! ## Methods -/

lemma tagged_append_receiverParts (hus : ∀ u ∈ us, u.Ground p) (hempty : ts.isEmpty = us.isEmpty)
    (h : n.tagged p ts ++ x = n.receiverParts p false (.named decl) us ++ y) : ts = us ∧ x = y := by
  cases us with
  | nil =>
    obtain rfl := List.isEmpty_iff.1 hempty
    exact ⟨rfl, h⟩
  | cons u us =>
    cases ts with
    | nil => cases hempty
    | cons t ts =>
      have hopens := hread.opens_spellings hus (cons_ne_nil u us)
      have h' : [] :: (n.spelling p t ++ n.tagged p ts ++ x) = n.spellings p (u :: us) ++ [[]] ++ y := h
      have := (hopens.append [[]]).append y
      rw [← h'] at this
      exact absurd this not_opens_nil

lemma receiver_append_inj (ht : IsReceiver p isNamed t) (hu : IsReceiver p isNamed' u) (hx : Opens x) (hy : Opens y)
    (h : n.receiverSegments p isNamed t ++ x = n.receiverSegments p isNamed' u ++ y) : t = u ∧ x = y := by
  obtain ⟨a, ts, rfl⟩ := ht.ground.exists_node
  obtain ⟨b, us, rfl⟩ := hu.ground.exists_node
  rw [receiverSegments, receiverSegments, append_assoc, append_assoc] at h
  obtain ⟨rfl, hrest⟩ := hread.opening_append_inj ht.ground.makesType hu.ground.makesType h
  have hempty := ht.ground.isEmpty_eq hu.ground
  have hts : ∀ t ∈ ts, t.Ground p := fun t h => ht.ground.part h
  have hus : ∀ u ∈ us, u.Ground p := fun u h => hu.ground.part h
  cases isNamed with
  | true =>
    cases isNamed' with
    | true =>
      obtain ⟨rfl, hxy⟩ := hread.tagged_append_inj hts hus (.inr hx) (.inr hy) hrest
      exact ⟨rfl, hxy⟩
    | false =>
      obtain ⟨decl, args, heq⟩ := ht.named rfl
      cases heq
      obtain ⟨rfl, hxy⟩ := hread.tagged_append_receiverParts hus hempty hrest
      exact ⟨rfl, hxy⟩
  | false =>
    cases isNamed' with
    | true =>
      obtain ⟨decl, args, heq⟩ := hu.named rfl
      cases heq
      obtain ⟨rfl, hxy⟩ := hread.tagged_append_receiverParts hts hempty.symm hrest.symm
      exact ⟨rfl, hxy.symm⟩
    | false =>
      refine hread.spelling_append_inj ht.ground hu.ground ?_
      rw [spelling_eq_receiverSegments, spelling_eq_receiverSegments, receiverSegments,
        receiverSegments, append_assoc, append_assoc]
      exact h

lemma method_inj (ht : IsReceiver p isNamed t)
    (hu : IsReceiver p isNamed' u) (hname : [] ∉ segments name)
    (hname' : [] ∉ segments name') (hts : ∀ t ∈ ts, t.Ground p) (hus : ∀ u ∈ us, u.Ground p)
    (h : n.receiverSegments p isNamed t ++ (segments name ++ n.tagged p ts) =
      n.receiverSegments p isNamed' u ++ (segments name' ++ n.tagged p us)) :
    t = u ∧ name = name' ∧ ts = us := by
  obtain ⟨rfl, hrest⟩ := hread.receiver_append_inj ht hu ((opens_segments hname).append _)
    ((opens_segments hname').append _) h
  obtain ⟨hsegments, htagged⟩ := segments_append_inj hname hname' hrest
  exact ⟨rfl, eq_of_segments_eq hsegments, hread.tagged_inj hts hus htagged⟩

lemma named_of_receiver_eq (hd : d ∈ declared) {head : TyHead} (hmakes : p.makesType head arity)
    (h : segments (n.base p d) ++ n.tagged p ts = n.opening p head ++ x) : head = .named d := by
  have hpre := h ▸ prefix_append _ _
  refine hread.eq_of_opening_prefix hmakes hd ?_
  rcases prefix_or_prefix_of_prefix hpre (prefix_append _ _) with hle | hle
  · by_cases hnamed : ∃ decl, head = .named decl
    · obtain ⟨t, rfl⟩ := hnamed
      have htype := hread.types t (mem_typeDecls_of_makesType hmakes)
      rw [hread.eq_of_base_prefix hd htype h hle]
      exact prefix_refl _
    · rw [opening_of_not_named fun decl heq => hnamed ⟨decl, heq⟩] at hle ⊢
      obtain ⟨seg, rest, hseg⟩ := exists_cons_of_ne_nil segments_ne_nil
      rw [hseg] at hle ⊢
      rw [(cons_prefix_cons.1 hle).1]
      exact cons_prefix_cons.2 ⟨rfl, nil_prefix⟩
  · exact hle

lemma declared_ne_method (hd : d ∈ declared) (hargs : ∀ t ∈ args, t.Ground p) (ht : IsReceiver p isNamed t) (hx : Opens x) :
    segments (n.base p d) ++ n.tagged p args ≠ n.receiverSegments p isNamed t ++ x := by
  intro h
  obtain ⟨head, ts, rfl⟩ := ht.ground.exists_node
  rw [receiverSegments, append_assoc] at h
  obtain rfl := hread.named_of_receiver_eq hd ht.ground.makesType h
  have hts : ∀ t ∈ ts, t.Ground p := fun t h => ht.ground.part h
  have hrest := append_cancel_left h
  cases isNamed with
  | true =>
    rw [← append_nil (n.tagged p args)] at hrest
    obtain ⟨-, rfl⟩ := hread.tagged_append_inj hargs hts (.inl rfl) (.inr hx) hrest
    obtain ⟨c, word, rest, heq⟩ := hx
    cases heq
  | false =>
    refine not_opens_tagged (n := n) (p := p) args ?_
    rw [hrest]
    cases ts with
    | nil => exact hx
    | cons t ts => exact ((hread.opens_spellings hts (cons_ne_nil t ts)).append [[]]).append x

end Readable

end Naming

namespace Label

def Valid (p : Program) (declared : List DefId) : Label → Prop
  | .declared decl args => decl ∈ declared ∧ ∀ t ∈ args, t.Ground p
  | .method receiver isNamed name args => IsReceiver p isNamed receiver ∧ [] ∉ segments name ∧ ∀ t ∈ args, t.Ground p

def Same : Label → Label → Prop
  | .declared d ts, .declared e us => d = e ∧ ts = us
  | .method t _ name ts, .method u _ name' us => t = u ∧ name = name' ∧ ts = us
  | _, _ => False

/-- A readable name tells what it is made of. -/
lemma same_of_segments_eq {declared : List DefId} (hread : Readable n p declared) (ha : a.Valid p declared)
    (hb : b.Valid p declared) (h : n.labelSegments p a = n.labelSegments p b) : a.Same b := by
  cases a with
  | declared d ts =>
    cases b with
    | declared e us => exact hread.declared_inj ha.1 hb.1 ha.2 hb.2 h
    | method u isNamed name us => exact hread.declared_ne_method ha.1 ha.2 hb.1 ((opens_segments hb.2.1).append _) h
  | method t isNamed name ts =>
    cases b with
    | declared e us => exact hread.declared_ne_method hb.1 hb.2 ha.1 ((opens_segments ha.2.1).append _) h.symm
    | method u isNamed' name' us => exact hread.method_inj ha.1 hb.1 ha.2.1 hb.2.1 ha.2.2 hb.2.2 h

end Label

end Kite
