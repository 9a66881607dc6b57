/-
Every judgement holds of the rules of the grammar that holds of the productions they refer to. A
rule that begins with a token of its own refers to productions only behind it; an expression may
begin with a block, and a statement with an expression or a block, without a token before it.
-/
import Kite.Proofs.Grammar.Judgement

namespace Kite.Grammar

open ItemKind Array

variable {α γ : Type} {J : Judgement} {s s' : State} {g g' : Productions} {own : List Bracket} {e e' : Expr}
  {t t' : TypeExpr} {least : Nat} {start : Span} {v : α → γ}

@[simp, grind =] def StmtOrTail.bare : StmtOrTail → StmtOrTail
  | .stmt s => .stmt s.bare
  | .tail e => .tail e.bare

attribute [local simp, local grind =] GenericKind.bare bare

/-- The judgement holds of the productions of two tables wherever one comes behind `s`, and what
they give is behind a token more. -/
structure Judgement.Table (J : Judgement) (g g' : Productions) (s : State) : Prop where
  told {α : Type} {p : Parse α} (c : g.Courses → Courses p) : J.Told p
  types : ∀ {own s'}, J.Lt s s' → J.Takes own own TypeExpr.bare g.type g'.type s'
  patterns : ∀ {own s'}, J.Lt s s' → J.Takes own own Pattern.bare g.pattern g'.pattern s'
  exprs : ∀ {own s' least}, J.Lt s s' → J.Takes own own Expr.bare (g.exprAbove least) (g'.exprAbove least) s'
  blocks : ∀ {own s'}, J.Lt s s' → J.Takes own own Block.bare g.block g'.block s'
  conditionals : ∀ {own s'}, J.Lt s s' → J.Takes own own ExprKind.bare g.conditional g'.conditional s'
  comptimeIfs : ∀ {own s'}, J.Lt s s' → J.Takes own own StmtKind.bare g.comptimeIf g'.comptimeIf s'
  stmts : ∀ {own s' closer}, J.Lt s s' → J.Takes own own StmtOrTail.bare (g.stmt closer) (g'.stmt closer) s'

/-- A rule that leaves the brackets as they are, with the one table and with the other. -/
abbrev Judgement.Reads (J : Judgement) (own : List Bracket) (v : α → γ) (f : Productions → Parse α) (g g' : Productions)
    (s : State) : Prop :=
  J.Takes own own v (f g) (f g') s

abbrev Judgement.Reading (J : Judgement) (s : State) (own : List Bracket) (v : α → γ) (f : Productions → Parse α)
    (g g' : Productions) : Prop :=
  J.Lasts s own own v (f g) (f g')

/-! ## Rules without productions -/

lemma takes_literalExpr (h : isOrdinary s.kind) : J.Takes own own ExprKind.bare literalExpr literalExpr s := by
  refine .bind_id (.token h) fun {token} => ?_
  split
  · exact .same
  · exact .refuse

lemma rounds_segmentRound : J.Rounds s own id id segmentRound segmentRound := by
  refine .of_id fun segments s' hlt => .isAt_bind (.nextKind_bind (.ite (fun hkind => ?_) fun _ => .same rfl))
  rw [Bool.and_eq_true, beq_iff_eq] at hkind
  exact .bind_id (.token (by rw [hkind.1]; rfl)) <| .bind_id .ident .same

lemma rounds_markRound : J.Rounds s own TypeExpr.bare TypeExpr.bare (markRound start) (markRound start) :=
  fun _ _ _ _ _ => .eat_bind (.plain rfl) (.node (by grind)) fun _ => .pure (by grind) rfl

lemma lasts_optionalMarks (h : Alike J.exact TypeExpr.bare t t') :
    J.Lasts s own own TypeExpr.bare (optionalMarks start t) (optionalMarks start t') :=
  .repeatFrom rounds_markRound h

lemma kind_of_bare (h : t.bare = t'.bare) : t.kind.bare = t'.kind.bare ∧ t.span = t'.span := by
  cases t
  cases t'
  exact (TypeExpr.mk.inj h).2

lemma takes_literalPattern (h : isOrdinary s.kind) :
    J.Takes own own PatternKind.bare (literalPattern negative) (literalPattern negative) s := by
  refine .bind_id (.token h) fun {token} => ?_
  split
  · exact .same
  · exact .reject

lemma rounds_variantRound : J.Rounds s own id id variantRound variantRound :=
  .of_id fun _ _ _ => .eat_bind (.plain rfl) (.bind_id .ident .same) fun _ => .same rfl

/-- Arguments go to the last segment. -/
lemma bare_withArgs {segments segments' : Array PathSegment}
    (hsegments : segments.map PathSegment.bare = segments'.map PathSegment.bare)
    (hargs : args.map TypeExpr.bare = args'.map TypeExpr.bare) :
    (withArgs segments args).map PathSegment.bare = (withArgs segments' args').map PathSegment.bare := by
  have hsize : segments.size = segments'.size := by simpa using congrArg size hsegments
  refine ext (by simp [withArgs, hsize]) fun i hi hi' => ?_
  have hi₁ : i < segments.size := by simpa [withArgs] using hi
  have hi₂ : i < segments'.size := hsize ▸ hi₁
  have hitem : segments[i].bare = segments'[i].bare := by
    have hget : (segments.map PathSegment.bare)[i]? = (segments'.map PathSegment.bare)[i]? := by rw [hsegments]
    simpa [hi₁, hi₂] using hget
  simp only [withArgs, getElem_map, getElem_modify, hsize]
  split
  · have hident (segment : PathSegment) : segment.bare.ident = segment.ident := by
      cases segment
      rfl
    have hsame : segments[i].ident = segments'[i].ident := by rw [← hident, hitem, hident]
    simp [PathSegment.bare, hsame, hargs]
  · exact hitem

lemma isBlockLike_of_bare (h : e.bare = e'.bare) : e.kind.isBlockLike = e'.kind.isBlockLike := by
  have hbare (kind : ExprKind) : kind.bare.isBlockLike = kind.isBlockLike := by
    cases kind <;> simp [ExprKind.isBlockLike]
  obtain ⟨id, kind, span⟩ := e
  obtain ⟨id', kind', span'⟩ := e'
  rw [← hbare kind, ← hbare kind', (Expr.mk.inj h).2.1]

lemma isOrdinary_of_unaryOp? (hop : unaryOp? first second = some op) :
    isOrdinary first ∧ (op = .mutView → isOrdinary second) := by
  unfold unaryOp? at hop
  split at hop
  iterate 4
    · cases hop
      exact ⟨rfl, fun h => by cases h⟩
  · cases hop
    refine ⟨rfl, fun h => ?_⟩
    split at h
    · rename_i hsecond
      rw [beq_iff_eq.1 hsecond]
      rfl
    · cases h
  · cases hop

lemma isOrdinary_of_infixOp? (hop : infixOp? k = some op) : isOrdinary k := by
  unfold infixOp? at hop
  split at hop
  · split at hop <;> first | rfl | cases hop
  · cases hop

lemma bare_build {kind : InfixKind} (hlhs : lhs.bare = lhs'.bare)
    (hrhs : rhs.bare = rhs'.bare) : (kind.build lhs rhs).bare = (kind.build lhs' rhs').bare := by
  cases kind <;> simp [InfixKind.build, hlhs, hrhs]

lemma span_of_bare (h : e.bare = e'.bare) : e.span = e'.span := by
  cases e
  cases e'
  exact (Expr.mk.inj h).2.2

lemma Block.span_of_bare {b b' : Block} (h : b.bare = b'.bare) : b.span = b'.span := by
  cases b
  cases b'
  exact (Block.mk.inj h).2.2.2

lemma takes_importDecl : J.Takes own own bare importDecl importDecl s := by
  refine .bind_id (.text rfl) <| .bind_id .ident <| .bind_id (.eat rfl) <|
    .ite (.bind_id .ident <| .pure_then ?_) (.pure_then ?_)
  all_goals exact .bind_id (.text rfl) .same

lemma lasts_receiver? : J.Lasts s own own id receiver? receiver? := by
  intro s' hlt
  refine .kind_bind (.nextKind_bind ?_)
  split
  · exact .bind_id (.seen ‹_› rfl) .same
  · rename_i hkind hnext
    refine .pass_bind (hkind ▸ rfl) fun hadvance _ => ?_
    exact .bind_id (.token (by rw [hadvance, hnext]; rfl)) .same
  · exact .same rfl

lemma lasts_fieldEnd : J.Lasts s own own id fieldEnd fieldEnd :=
  .bind_id (.eat rfl) <| .ite .same (.bind_id (.eat rfl) <| .ite .same
    (.isAt_bind <| .kind_bind <| .ite .refuseExpected .same))

section

variable (hg : J.Table g g' s)

include hg

namespace Judgement.Table

/-- What holds behind a state holds behind every later one. -/
lemma after (hlt : J.Lt s s') : J.Table g g' s' where
  told := hg.told
  types h := hg.types (J.lt_trans hlt h)
  patterns h := hg.patterns (J.lt_trans hlt h)
  exprs h := hg.exprs (J.lt_trans hlt h)
  blocks h := hg.blocks (J.lt_trans hlt h)
  conditionals h := hg.conditionals (J.lt_trans hlt h)
  comptimeIfs h := hg.comptimeIfs (J.lt_trans hlt h)
  stmts h := hg.stmts (J.lt_trans hlt h)

lemma type : J.Lasts s own own TypeExpr.bare g.type g'.type := .of_takes hg.types

lemma pattern : J.Lasts s own own Pattern.bare g.pattern g'.pattern := .of_takes hg.patterns

lemma exprAbove : J.Lasts s own own Expr.bare (g.exprAbove least) (g'.exprAbove least) := .of_takes hg.exprs

lemma expr : J.Lasts s own own Expr.bare g.expr g'.expr := hg.exprAbove

lemma block : J.Lasts s own own Block.bare g.block g'.block := .of_takes hg.blocks

end Judgement.Table

/-! ## Types -/

lemma takes_constArg (hkind : s.kind = .intLiteral ∨ s.kind = .symbol .lbrace) :
    J.Reads own TypeExpr.bare constArg g g' s := by
  refine .here_bind (.eat_bind (.opens rfl) (.bind hg.expr fun _ => .bind_id (.closing rfl) <|
    .pure_then (.node (by grind))) fun hbrace => ?_)
  have hliteral : s.kind = .intLiteral := hkind.resolve_right hbrace
  exact .bind (takes_literalExpr (hliteral ▸ rfl)) fun _ => .id_bind fun _ => .span_bind <| .pure_then (.node (by grind))

lemma lasts_genericArg : J.Reading s own TypeExpr.bare genericArg g g' := by
  intro s' hlt
  refine .kind_bind (.ite (fun hkind => ?_) fun _ => hg.type s' hlt)
  exact (takes_constArg (hg.after hlt) (by simpa using hkind)).of_takes

lemma lasts_genericArgs : J.Reading s own (List.map TypeExpr.bare) genericArgs g g' :=
  .bind_id (.text rfl) <| .bind (.commaList (lasts_genericArg hg) _) fun hargs =>
    .bind_id .closeAngle <| .pure hargs.fst

lemma takes_pathType : J.Reads own PathType.bare pathType g g' s := by
  refine .here_bind (.bind_id .ident <| .bind_id (.repeatFrom rounds_segmentRound (by grind)) <|
    .isAt_bind <| .ite (.bind (lasts_genericArgs hg) fun _ => ?_) (.pure_then ?_))
  all_goals exact .span_bind (.pure (by grind))

lemma takes_typeKind : J.Reads own TypeKind.bare typeKind g g' s := by
  refine .kind_bind ?_
  split
  · rename_i hkind
    refine .bind_id (.bump (.opens (b := .bracket) (hkind ▸ rfl))) <| .bind hg.type fun _ =>
      .bind_id (.eat rfl) <| .ite ?_ ?_
    · exact .bind hg.expr fun _ => .bind_id (.closing rfl) (.pure (by grind))
    · exact .bind_id (.expect_close rfl) (.pure (by grind))
  · exact .bind_id (.seen ‹_› rfl) <| .bind_id (.eat rfl) <| .bind hg.type fun _ => .pure (by grind)
  · exact .bind_id (.seen ‹_› rfl) <| .bind hg.type fun _ => .pure (by grind)
  · refine .bind_id (.seen ‹_› rfl) <| .bind_id (.opening rfl) <| .bind (.itemsBefore hg.type _) fun _ => ?_
    refine .bind_id (.closing rfl) <| .bind_id (.eat rfl) <| .ite (.bind hg.type fun _ => .pure (by grind)) ?_
    exact .id_bind fun _ => .get_bind fun _ => .pure (by grind)
  · exact .bind (takes_pathType hg) fun _ => .pure (by grind)
  · exact .refuseExpected

/-- One type in parentheses is that type, and a tuple only with a comma. -/
lemma takes_typeExpr : J.Reads own TypeExpr.bare typeExpr g g' s := by
  refine .here_bind (.eat_bind (.opens rfl) ?_ fun _ => ?_)
  · refine .bind (.commaList hg.type _) fun {a b} hab => .bind_id (.closing rfl) fun {_} => ?_
    obtain ⟨items, comma⟩ := a
    obtain ⟨items', comma'⟩ := b
    obtain ⟨hitems, rfl⟩ : items.map TypeExpr.bare = items'.map TypeExpr.bare ∧ comma = comma' := by simpa using hab.1
    have htuple (start : Span) : J.Lasts s own own TypeExpr.bare
        (do optionalMarks start ⟨← freshId, .tuple items, ← spanFrom start⟩)
        (do optionalMarks start ⟨← freshId, .tuple items', ← spanFrom start⟩) :=
      .id_bind fun _ => .span_bind (lasts_optionalMarks (by grind))
    have hlength : items.length = items'.length := by simpa using congrArg List.length hitems
    rcases items with _ | ⟨x, _ | ⟨y, rest⟩⟩ <;> rcases items' with _ | ⟨x', _ | ⟨y', rest'⟩⟩
    all_goals try (simp at hlength; done)
    · exact htuple _
    · cases comma with
      | false =>
        obtain ⟨hx, -⟩ := List.cons.inj hitems
        exact .span_bind <| lasts_optionalMarks ⟨by simp [kind_of_bare hx], by simp_all +contextual⟩
      | true => exact htuple _
    · exact htuple _
  · exact .bind (takes_typeKind hg) fun _ => .id_bind fun _ => .span_bind (lasts_optionalMarks (by grind))

/-! ## Patterns -/

lemma takes_namePattern : J.Reads own PatternKind.bare namePattern g g' s := by
  refine .bind_id .ident <| .bind_id (.repeatFrom rounds_variantRound (by grind)) <| .isAt_bind <|
    .ite .same (.eat_bind (.opens rfl) ?_ .same)
  exact .bind (.itemsBefore hg.pattern _) fun _ => .bind_id (.closing rfl) (.pure (by grind))

lemma takes_patternKind : J.Reads own PatternKind.bare patternKind g g' s := by
  refine .kind_bind ?_
  split
  · exact .bind_id (.seen ‹_› rfl) .same
  · rename_i hkind
    refine .nextKind_bind (.ite (fun hnext => .pass_bind (hkind ▸ rfl) fun hadvance _ => ?_) fun _ => .refuseExpected)
    refine (takes_literalPattern ?_).of_takes
    rw [hadvance]
    rcases (by simpa using hnext : s.nextKind = .intLiteral ∨ s.nextKind = .floatLiteral) with hnext | hnext
    all_goals
      rw [hnext]
      rfl
  iterate 4 exact takes_literalPattern (by simp only [*]; rfl)
  iterate 3 exact .bind_id (.seen ‹_› rfl) .same
  · exact .bind_id (.seen ‹_› rfl) <| .bind_id (.opening rfl) <| .bind hg.pattern fun _ =>
      .bind_id (.closing rfl) (.pure (by grind))
  · exact takes_namePattern hg
  · exact .refuseExpected

lemma takes_pattern : J.Reads own Pattern.bare pattern g g' s :=
  .here_bind (.bind (takes_patternKind hg) fun _ => .node (by grind))

/-! ## Expressions -/

lemma rounds_pathRound :
    J.Rounds s own (map PathSegment.bare) (List.map PathSegment.bare) (pathRound g) (pathRound g') := by
  intro a b s' hab hlt
  have hlist := map_toList hab.1
  refine .isAt_bind (.ite (fun _ => .pure (by grind) rfl) fun hkind => .nextKind_bind ?_)
  have hkind : s'.kind = .symbol .colonColon := by simpa using hkind
  refine .bind_id (.token (hkind ▸ rfl)) ?_
  split
  · exact .bind (lasts_genericArgs (hg.after hlt)) fun hargs =>
      .pure ⟨by simp [bare_withArgs hab.1 hargs.1], by simp_all +contextual⟩
  · exact .bind_id .ident (.pure (by grind))
  · exact .refuseExpected

lemma takes_pathExpr : J.Reads own ExprKind.bare pathExpr g g' s :=
  .here_bind (.bind_id .ident <| .bind (.repeatFrom (rounds_pathRound hg) (by grind)) fun _ =>
    .span_bind (.pure (by grind)))

lemma takes_parenthesised (hkind : s.kind = .symbol .lparen) :
    J.Reads own ExprKind.bare parenthesised g g' s := by
  refine .bind_id (.bump (.opens (b := .paren) (hkind ▸ rfl))) <| .eat_bind (.closes rfl) .same ?_
  refine .bind hg.expr fun _ => .bind_id (.eat rfl) <| .ite ?_ ?_
  · exact .bind (.itemsBefore hg.expr _) fun _ => .bind_id (.closing rfl) (.pure (by grind))
  · exact .bind_id (.closing rfl) (.pure (by grind))

lemma takes_bracketed (hkind : s.kind = .symbol .lbracket) :
    J.Reads own ExprKind.bare bracketed g g' s := by
  refine .bind_id (.bump (.opens (b := .bracket) (hkind ▸ rfl))) <| .eat_bind (.closes rfl) .same ?_
  refine .bind hg.expr fun _ => .bind_id (.eat rfl) <| .ite ?_ ?_
  · exact .bind hg.expr fun _ => .bind_id (.closing rfl) (.pure (by grind))
  · refine .bind_id (.eat rfl) <| .ite (.bind (.itemsBefore hg.expr _) fun _ => ?_) (.pure_then ?_)
    all_goals exact .bind_id (.expect_close rfl) (.pure (by grind))

lemma takes_conditional : J.Reads own ExprKind.bare conditional g g' s := by
  refine .bind_id (.text rfl) <| .bind hg.expr fun _ => .bind hg.block fun _ =>
    .bind_id (.eat rfl) <| .ite ?_ (.pure (by grind))
  refine .here_bind <| .isAt_bind <| .ite (.bind (.of_takes hg.conditionals) fun _ => ?_)
    (.bind hg.block fun _ => .pure_then ?_)
  all_goals exact .node (by grind)

lemma rounds_alternativeRound :
    J.Rounds s own (map Pattern.bare) (List.map Pattern.bare) (alternativeRound g) (alternativeRound g') := by
  intro a b s' hab hlt
  have hlist := map_toList hab.1
  exact .eat_bind (.plain rfl) (.bind (hg.after hlt).pattern fun _ => .pure (by grind)) fun _ => .pure (by grind) rfl

lemma takes_matchArm (hlt : J.Lt s s') : J.Reads own MatchArm.bare matchArm g g' s' := by
  have hg' := hg.after hlt
  refine .here_bind (.bind (hg.patterns hlt) fun _ => .bind (.repeatFrom (rounds_alternativeRound hg') (by grind))
    fun _ => .bind_id (.text rfl) <| .bind hg'.expr fun {body body'} hbody => .bind_id (.eat rfl) <|
      .isAt_bind ?_)
  rw [isBlockLike_of_bare hbody.1]
  exact .ite .refuse_bind (.node (by grind))

/-- An arm that is refused is skipped up to the next one. -/
lemma rounds_armRound : J.Rounds s (.brace :: own) (map MatchArm.bare) (List.map MatchArm.bare)
    (armRound g) (armRound g') := by
  intro a b s' hab hlt
  have hlist := map_toList hab.1
  refine .kind_bind ?_
  split
  · exact .pure (by grind) rfl
  · exact .refuseExpected
  · rename_i hbrace heof
    exact J.holds_recovering (.inl rfl) (.bind (takes_matchArm hg hlt) fun _ => .pure (by grind))
      (hg.told fun c => .bind (matchArmCourses c) .pure) hab heof hbrace

lemma takes_matchExpr : J.Reads own ExprKind.bare matchExpr g g' s :=
  .bind_id (.text rfl) <| .bind hg.expr fun _ => .bind_id (.opening rfl) <|
    .bind (.repeatFrom (rounds_armRound hg) (by grind)) fun _ => .bind_id (.closing rfl) (.pure (by grind))

section

variable (hblock : ∀ {own}, J.Takes own own Block.bare g.block g'.block s)

include hblock

/-- A block is the one case without a token before it. -/
lemma takes_primaryKind : J.Reads own ExprKind.bare primaryKind g g' s := by
  refine .kind_bind ?_
  split
  iterate 4 exact takes_literalExpr (by simp only [*]; rfl)
  iterate 3 exact .bind_id (.seen ‹_› rfl) .same
  · exact .bind_id (.seen ‹_› rfl) <| .bind_id (.opening rfl) <| .bind hg.expr fun _ =>
      .bind_id (.closing rfl) (.pure (by grind))
  · exact .bind_id (.seen ‹_› rfl) .same
  · exact takes_pathExpr hg
  · exact takes_parenthesised hg ‹_›
  · exact takes_bracketed hg ‹_›
  · exact takes_conditional hg
  · exact takes_matchExpr hg
  · exact .bind hblock fun _ => .pure (by grind)
  · exact .bind_id (.seen ‹_› rfl) <| .bind hg.block fun _ => .pure (by grind)
  · exact .bind_id (.seen ‹_› rfl) <| .kind_bind <| .ite .same (.bind hg.expr fun _ => .pure (by grind))
  iterate 2 exact .bind_id (.seen ‹_› rfl) .same
  · exact .refuseExpected

lemma takes_primary : J.Reads own Expr.bare primary g g' s :=
  .here_bind (.bind (takes_primaryKind hg hblock) fun _ => .node (by grind))

end

lemma lasts_argument : J.Reading s own Arg.bare argument g g' := by
  intro s' hlt
  refine .isAt_bind (.nextKind_bind (.ite (fun hkind => ?_) fun _ =>
    (Judgement.Lasts.bind hg.expr fun _ => .pure (by grind)) s' hlt))
  rw [Bool.and_eq_true, beq_iff_eq, beq_iff_eq] at hkind
  refine .ident_bind hkind.1 (.pass_bind (by rw [hkind.1]; rfl) fun hadvance hlt' => ?_)
  refine .bind_id (.token (by rw [hadvance, hkind.2]; rfl)) ?_
  exact .bind (hg.after (J.lt_trans hlt hlt')).expr fun _ => .pure (by grind)

lemma takes_arguments : J.Reads own (List.map Arg.bare) arguments g g' s :=
  .bind_id (.opening rfl) <| .bind (.itemsBefore (lasts_argument hg) _) fun _ =>
    .bind_id (.expect_close rfl) (.pure (by grind))

lemma lasts_member (hbase : Alike J.exact Expr.bare base base') :
    J.Lasts s own own ExprKind.bare (member g base) (member g' base') := by
  have hbad {s : State} (token : Token) :
      J.Lasts s own own ExprKind.bare (member.badIndex token) (member.badIndex token) := .reject
  intro s' hlt
  refine .kind_bind ?_
  split
  · refine .bind_id .ident fun {name s'' hlt'} => ?_
    have hlt'' := J.lt_trans hlt hlt'
    refine .isAt_bind (.nextKind_bind (.ite (fun hkind => ?_) fun _ => (Judgement.Lasts.pure_then ?_) s'' hlt'))
    · rw [Bool.and_eq_true, beq_iff_eq] at hkind
      refine .bind_id (.token (by rw [hkind.1]; rfl)) <| .bind (lasts_genericArgs (hg.after hlt''))
        fun {generics generics'} hgenerics => ?_
      have hempty : generics.isEmpty = generics'.isEmpty := by simpa using congrArg List.isEmpty hgenerics.1
      dsimp only
      rw [hempty]
      exact .isAt_bind <| .ite (.bind (.of_takes fun h => takes_arguments (hg.after (J.lt_trans hlt'' h)))
        fun _ => .pure (by grind)) (.ite .refuse_bind (.pure (by grind)))
    · exact .isAt_bind <| .ite (.bind (.of_takes fun h => takes_arguments (hg.after (J.lt_trans hlt h)))
        fun _ => .pure (by grind)) (.ite .refuse_bind (.pure (by grind)))
  · refine .bind_id (.seen ‹_› rfl) fun {token} => ?_
    split
    · exact .ite (.pure (by grind)) (hbad token)
    · exact hbad token
  · exact .refuseExpected

lemma holds_postfixKind? (hbase : Alike J.exact Expr.bare base base') :
    J.Holds own own (Option.map ExprKind.bare) Option.isSome (postfixKind? g base) (postfixKind? g' base') s := by
  refine .kind_bind ?_
  split
  · exact .bind (takes_arguments hg) fun _ => .pure (by grind)
  · rename_i hkind
    exact .bind_id (.bump (.opens (b := .bracket) (hkind ▸ rfl))) <| .bind hg.expr fun _ =>
      .bind_id (.closing rfl) (.pure (by grind))
  · exact .bind_id (.seen ‹_› rfl) (.pure (by grind))
  · exact .bind_id (.seen ‹_› rfl) <| .bind (lasts_member hg hbase) fun _ => .pure (by grind)
  · exact .same rfl

lemma rounds_postfixRound : J.Rounds s own Expr.bare Expr.bare (postfixRound g start) (postfixRound g' start) := by
  intro a b s' hab hlt
  refine J.holds_bind (holds_postfixKind? (hg.after hlt) hab) fun kind? kind?' s'' hkind _ hlt' => ?_
  cases kind? with
  | none =>
    cases kind?' with
    | none => exact .pure (by grind) rfl
    | some _ => cases hkind.1
  | some kind =>
    cases kind?' with
    | none => cases hkind.1
    | some kind' => exact Judgement.Lasts.node (by simp_all +contextual) s'' (hlt' rfl)

/-- Operators that bind less tightly are left for the caller. -/
lemma rounds_operatorRound : J.Rounds s own (Prod.map Expr.bare id) Expr.bare (operatorRound g least start)
    (operatorRound g' least start) := by
  rintro ⟨lhs, unchained⟩ ⟨lhs', unchained'⟩ s' hab hlt
  obtain ⟨hlhs, rfl⟩ : lhs.bare = lhs'.bare ∧ unchained = unchained' := by simpa using hab.1
  have hg' := hg.after hlt
  refine .kind_bind (.ite (fun has => .ite (fun _ => .pure (by grind) rfl) fun _ => ?_) fun _ => ?_)
  · exact .bind_id (.token (by rw [beq_iff_eq.1 has]; rfl)) <| .bind hg'.type fun _ => .node (by grind)
  · split
    · exact .pure (by grind) rfl
    · rename_i op hop
      refine .ite (fun _ => .pure (by grind) rfl) fun _ => .ite (fun _ => .here_bind .reject) fun _ => ?_
      exact .bind_id (.token (isOrdinary_of_infixOp? hop)) <| .bind hg'.exprAbove fun hrhs =>
        .node fun _ _ _ _ => ⟨by simp [bare_build hlhs hrhs.1], by simp_all +contextual⟩

section

variable (hblock : ∀ {own}, J.Takes own own Block.bare g.block g'.block s)

include hblock

lemma takes_postfixExpr : J.Reads own Expr.bare postfixExpr g g' s :=
  .here_bind (.bind (takes_primary hg hblock) fun _ => .repeatFrom (rounds_postfixRound hg) (by grind))

lemma takes_unaryExpr : J.Reads own Expr.bare unaryExpr g g' s := by
  refine .here_bind (.kind_bind (.nextKind_bind ?_))
  split
  · exact takes_postfixExpr hg hblock
  · rename_i op hop
    obtain ⟨hfirst, hsecond⟩ := isOrdinary_of_unaryOp? hop
    refine .pass_bind hfirst fun hadvance hlt => .ite (fun hview => .bind_id (.token ?_) ?_) fun _ => ?_
    · rw [hadvance]
      exact hsecond (beq_iff_eq.1 hview)
    · exact .bind (hg.after hlt).exprAbove fun _ => .node (by grind)
    · exact (Judgement.Lasts.bind hg.exprAbove fun _ => .node (by grind)) _ hlt

lemma takes_exprAbove : J.Takes own own Expr.bare (exprAbove g least) (exprAbove g' least) s :=
  .here_bind (.bind (takes_unaryExpr hg hblock) fun _ => .repeatFrom (rounds_operatorRound hg) (by grind))

end

/-! ## Statements -/

lemma lasts_assertion : J.Reading s own (Prod.map Expr.bare (Option.map Expr.bare)) assertion g g' := by
  refine .bind_id (.text rfl) <| .bind_id (.opening rfl) <| .bind hg.expr fun _ => .bind_id (.eat rfl) ?_
  refine .ite (.isAt_bind <| .ite (.pure_then ?_) (.bind hg.expr fun _ => .pure_then ?_)) (.pure_then ?_)
  all_goals exact .bind_id (.closing rfl) (.pure (by grind))

lemma takes_comptimeIf : J.Reads own StmtKind.bare comptimeIf g g' s := by
  refine .bind_id (.text rfl) <| .bind hg.expr fun _ => .bind hg.block fun _ =>
    .bind_id (.eat rfl) <| .ite ?_ (.pure (by grind))
  refine .here_bind <| .isAt_bind <| .ite (.bind (.of_takes hg.comptimeIfs) fun _ => .node (by grind))
    (.bind hg.block fun helse => .id_bind fun _ => .pure_then ?_)
  have hspan := Block.span_of_bare helse.1
  exact .node (by grind)

lemma takes_letStmt (hkind : s.kind = .keyword .kwLet) :
    J.Reads own StmtKind.bare letStmt g g' s := by
  refine .bind_id (.seen ‹_› rfl) <| .bind_id (.eat rfl) <| .bind_id .ident <| .bind_id (.eat rfl) <|
    .ite (.bind hg.type fun _ => .pure_then ?_) (.pure_then ?_)
  all_goals exact .bind_id (.text rfl) <| .bind hg.expr fun _ => .bind_id (.text rfl) (.pure (by grind))

lemma takes_forStmt (hkind : s.kind = .keyword .kwFor) : J.Reads own StmtKind.bare forStmt g g' s :=
  .bind_id (.seen ‹_› rfl) <| .bind_id .ident <| .bind_id (.text rfl) <| .bind hg.expr fun _ =>
    .bind hg.block fun _ => .pure (by grind)

/-- A statement may begin with a block or an expression, so both are given at `s` itself. -/
lemma takes_stmt (hblock : ∀ {own}, J.Takes own own Block.bare g.block g'.block s)
    (hexpr : ∀ {own}, J.Takes own own Expr.bare g.expr g'.expr s) :
    J.Takes own own StmtOrTail.bare (stmt g closer) (stmt g' closer) s := by
  refine .here_bind (.kind_bind (.nextKind_bind ?_))
  split
  · exact .bind (takes_letStmt hg ‹_›) fun _ => .node (by grind)
  · exact .bind_id (.seen ‹_› rfl) <| .bind hg.expr fun _ => .bind hg.block fun _ => .node (by grind)
  · exact .bind_id (.seen ‹_› rfl) <| .bind hg.block fun _ => .node (by grind)
  · exact .bind (takes_forStmt hg ‹_›) fun _ => .node (by grind)
  · refine .bind_id (.seen ‹_› rfl) <| .bind (.of_takes hg.stmts) fun {inner inner'} hinner => ?_
    cases inner with
    | stmt inner =>
      cases inner' with
      | stmt inner' => exact .node (by grind)
      | tail _ => cases hinner.1
    | tail e =>
      cases inner' with
      | stmt _ => cases hinner.1
      | tail e' =>
        have hspan := span_of_bare (StmtOrTail.tail.inj hinner.1)
        exact .id_bind fun _ => .node (by simp_all +contextual [exprStmt])
  · exact .bind_id (.seen ‹_› rfl) <| .bind (.of_takes fun h => takes_comptimeIf (hg.after h)) fun _ => .node (by grind)
  · refine .bind_id (.seen ‹_› rfl) <| .bind (lasts_assertion hg) fun {a b} hab => .bind_id (.text rfl) ?_
    obtain ⟨hcondition, hmessage⟩ := Prod.mk.inj hab.1
    exact .node (by grind)
  · refine .ite (fun _ => .reject) fun _ => .ite (fun _ => .bind (takes_primary hg hblock) fun _ => ?_)
      fun _ => .bind hexpr fun _ => ?_
    all_goals
      exact .bind_id (.eat rfl) <| .ite (.node (by grind)) (.isAt_bind <|
        .ite (.pure (by grind)) (.ite (.node (by grind)) .refuseExpected))

lemma rounds_blockRound : J.Rounds s (.brace :: own) (Prod.map (map Stmt.bare) (Option.map Expr.bare))
    (Prod.map (List.map Stmt.bare) (Option.map Expr.bare)) (blockRound g) (blockRound g') := by
  rintro ⟨stmts, tail⟩ ⟨stmts', tail'⟩ s' hab hlt
  obtain ⟨hstmts, htail⟩ := Prod.mk.inj hab.1
  have hlist := map_toList hstmts
  refine .kind_bind ?_
  split
  · exact .pure (by grind) rfl
  · exact .refuseExpected
  · exact .bind_id (.seen ‹_› rfl) (.pure (by grind))
  · rename_i hbrace heof _
    have hstmt : J.Takes [] [] _ (stmt g (.symbol .rbrace)) _ s' :=
      takes_stmt (hg.after hlt) (hg.blocks hlt) (hg.exprs hlt)
    refine J.holds_recovering (.inr rfl) (.bind hstmt fun {stmt stmt'} hstmt => ?_)
      (hg.told fun c => .bind (stmtCourses c _) fun {stmt} => ?_) (by simp_all +contextual) heof hbrace
    · cases stmt with
      | stmt stmt =>
        cases stmt' with
        | stmt stmt' => exact .pure (by grind)
        | tail _ => cases hstmt.1
      | tail e =>
        cases stmt' with
        | stmt _ => cases hstmt.1
        | tail e' => exact .pure (by grind)
    · split
      · exact .pure
      · exact .pure

lemma takes_block : J.Reads own Block.bare block g g' s := by
  refine .here_bind (.bind_id (.opening rfl) <| .id_bind fun _ => .bind (.repeatFrom (rounds_blockRound hg) (by grind))
    fun {a b} hab => .bind_id (.closing rfl) ?_)
  obtain ⟨hstmts, htail⟩ := Prod.mk.inj hab.1
  exact .span_bind (.pure (by grind))

/-! ## Declarations -/

lemma rounds_boundRound :
    J.Rounds s own (map PathType.bare) (List.map PathType.bare) (boundRound g) (boundRound g') := by
  intro a b s' hab hlt
  have hlist := map_toList hab.1
  exact .bind (takes_pathType (hg.after hlt)) fun _ => .bind_id (.eat rfl) <| .ite (.pure (by grind)) (.pure (by grind))

lemma lasts_genericParam : J.Reading s own GenericParam.bare genericParam g g' := by
  refine .id_bind fun _ => .bind_id (.eat rfl) <| .ite ?_ ?_
  · exact .bind_id .ident <| .bind_id (.text rfl) <| .bind hg.type fun _ =>
      .pure (by simp_all +contextual [GenericParam.bare])
  · refine .bind_id .ident <| .bind_id (.eat rfl) <| .ite ?_ (.pure (by simp_all +contextual [GenericParam.bare]))
    exact .bind (.repeatFrom (rounds_boundRound hg) (by grind)) fun _ => .pure (by simp_all +contextual [GenericParam.bare])

lemma lasts_genericParams : J.Reading s own (List.map GenericParam.bare) genericParams g g' :=
  .bind_id (.eat rfl) <| .ite .same (.bind (.commaList (lasts_genericParam hg) _) fun hparams =>
    .bind_id .closeAngle <| .pure hparams.fst)

lemma lasts_param : J.Reading s own Param.bare param g g' :=
  .here_bind <| .bind_id (.eat rfl) <| .bind_id .ident <| .bind_id (.text rfl) <|
    .bind hg.type fun _ => .node (by simp_all +contextual [Param.bare])

lemma lasts_functionBody : J.Reading s own FunctionBody.bare functionBody g g' :=
  .isAt_bind <| .ite (.bind hg.block fun _ => .pure (by simp_all +contextual [FunctionBody.bare]))
    (.bind_id (.eat rfl) <|
    .ite (.bind hg.expr fun _ => .bind_id (.text rfl) <| .pure (by simp_all +contextual [FunctionBody.bare]))
      (.bind_id (.eat rfl) <| .ite .same .refuseExpected))

lemma takes_function : J.Takes own own FunctionDecl.bare (function g isComptime isForeign)
    (function g' isComptime isForeign) s := by
  refine .here_bind (.bind_id (.text rfl) <| .id_bind fun _ => .bind_id .ident <|
    .bind (lasts_genericParams hg) fun _ => .bind_id (.opening rfl) <| .bind_id lasts_receiver? <|
      .isAt_bind <| .ite (.bind_id (.expect rfl) ?_) ?_)
  all_goals
    refine .bind (.itemsBefore (lasts_param hg) _) fun _ => .bind_id (.closing rfl) <| .bind_id (.eat rfl) <|
      .ite (.bind hg.type fun _ => .pure_then ?_) (.pure_then ?_)
    all_goals
      exact .bind (lasts_functionBody hg) fun _ => .span_bind <| .pure (by simp_all +contextual [FunctionDecl.bare])

/-- Two tokens tell whether there is a method. -/
lemma holds_method? : J.Holds own own (Option.map FunctionDecl.bare) Option.isSome (method? g) (method? g') s := by
  refine .kind_bind (.nextKind_bind ?_)
  split
  · exact .bind (takes_function hg) fun _ => .pure (by grind)
  · exact .bind_id (.seen ‹_› rfl) <| .bind (.of_takes fun h => takes_function (hg.after h)) fun _ => .pure (by grind)
  · exact .same rfl

section

variable {other other' : Parse α} (hother : ∀ {own s'}, J.Lt s s' → J.Takes own own v other other' s')

include hother

/-- Methods and other members, in any order. -/
lemma rounds_memberRound : J.Rounds s own (Prod.map (map v) (map FunctionDecl.bare))
    (Prod.map (List.map v) (List.map FunctionDecl.bare)) (memberRound g other) (memberRound g' other') := by
  rintro ⟨others, methods⟩ ⟨others', methods'⟩ s' hab hlt
  obtain ⟨hothers, hmethods⟩ := Prod.mk.inj hab.1
  have hlists := And.intro (map_toList hothers) (map_toList hmethods)
  refine .isAt_bind (.ite (fun _ => .pure (by grind) rfl) fun _ => ?_)
  refine J.holds_bind (holds_method? (hg.after hlt)) fun method? method?' s'' hmethod hle _ => ?_
  cases method? with
  | none =>
    cases method?' with
    | none => exact .bind (hother (J.lt_of_lt_of_le hlt hle)) fun _ => .pure (by grind)
    | some _ => cases hmethod.1
  | some method =>
    cases method?' with
    | none => cases hmethod.1
    | some method' => exact .pure (by grind) rfl

lemma lasts_members : J.Lasts s own own (Prod.map (List.map v) (List.map FunctionDecl.bare)) (members g other)
    (members g' other') :=
  .bind_id (.opening rfl) <| .bind (.repeatFrom (rounds_memberRound hg hother) (by grind)) fun _ =>
    .bind_id (.closing rfl) (.pure (by grind))

end

lemma takes_field : J.Reads own FieldDecl.bare field g g' s :=
  .isAt_bind (.ite (fun _ => .refuse_bind) fun _ => .here_bind (.bind_id .ident <| .bind_id (.text rfl) <|
    .bind hg.type fun _ => .id_bind fun _ => .span_bind <| .bind_id lasts_fieldEnd <|
      .pure (by simp_all +contextual [FieldDecl.bare])))

lemma takes_struct (h : isOrdinary s.kind) : J.Reads own bare struct g g' s := by
  refine .bind_id (.token h) <| .bind_id .ident <| .bind (lasts_genericParams hg) fun _ =>
    .bind (lasts_members hg fun h => takes_field (hg.after h)) fun {a b} hab => ?_
  obtain ⟨hfields, hmethods⟩ := Prod.mk.inj hab.1
  exact .pure (by grind)

lemma takes_variant : J.Reads own VariantDecl.bare variant g g' s := by
  refine .here_bind (.bind_id .ident <| .eat_bind (.opens rfl)
    (.bind (.itemsBefore hg.type _) fun _ => .bind_id (.closing rfl) <| .pure_then ?_) (.pure_then ?_))
  all_goals
    refine .bind_id (.eat rfl) <| .ite (.bind hg.expr fun _ => .pure_then ?_) (.pure_then ?_)
    all_goals
      refine .id_bind fun _ => .span_bind <| .bind_id (.eat rfl) <|
        .ite (.isAt_bind <| .kind_bind <| .ite .refuse_bind (.pure ?_)) (.pure ?_)
      all_goals simp_all +contextual [VariantDecl.bare]

lemma takes_enum : J.Reads own bare enum g g' s := by
  refine .bind_id (.text rfl) <| .bind_id .ident <| .bind (lasts_genericParams hg) fun _ =>
    .bind_id (.eat rfl) <| .ite (.bind hg.type fun _ => .pure_then ?_) (.pure_then ?_)
  all_goals
    refine .bind (lasts_members hg fun h => takes_variant (hg.after h)) fun {a b} hab => ?_
    obtain ⟨hvariants, hmethods⟩ := Prod.mk.inj hab.1
    exact .pure (by grind)

lemma rounds_requiredRound : J.Rounds s own (map FunctionDecl.bare) (List.map FunctionDecl.bare)
    (requiredRound g) (requiredRound g') := by
  intro a b s' hab hlt
  have hlist := map_toList hab.1
  refine .kind_bind ?_
  split
  · exact .pure (by grind) rfl
  · exact .refuseExpected
  · exact .bind (takes_function (hg.after hlt)) fun _ => .pure (by grind)

lemma takes_trait : J.Reads own bare trait g g' s :=
  .bind_id (.text rfl) <| .bind_id .ident <| .bind_id (.opening rfl) <|
    .bind (.repeatFrom (rounds_requiredRound hg) (by grind)) fun _ => .bind_id (.closing rfl) (.pure (by grind))

lemma lasts_implHead : J.Reading s own (Prod.map (Option.map PathType.bare) TypeExpr.bare) implHead g g' := by
  refine .bind hg.type fun {first first'} hfirst => .bind_id (.eat rfl) <| .ite ?_ (.pure (by grind))
  obtain ⟨hkind, hspan⟩ := kind_of_bare hfirst.1
  split <;> split
  · rename_i path hpath _ path' hpath'
    exact .bind hg.type fun _ => .pure (by grind)
  · rename_i path hpath _ hpath'
    cases hother : first'.kind <;> simp_all
  · rename_i hpath path' hpath'
    cases hother : first.kind <;> simp_all
  · rw [hspan]
    exact .reject

lemma takes_impl : J.Reads own bare impl g g' s := by
  refine .bind_id (.text rfl) <| .bind (lasts_genericParams hg) fun _ => .bind (lasts_implHead hg) fun {a b} hhead =>
    .bind (lasts_members hg (v := id) fun _ => .refuseExpected) fun {a' b'} hmembers => ?_
  obtain ⟨htrait, htarget⟩ := Prod.mk.inj hhead.1
  obtain ⟨-, hmethods⟩ := Prod.mk.inj hmembers.1
  exact .pure (by grind)

lemma lasts_globalTail : J.Lasts s own own (Prod.map id (Prod.map TypeExpr.bare Expr.bare))
    (globalTail g what) (globalTail g' what) :=
  .bind_id .ident <| .bind_id (.text rfl) <| .bind hg.type fun _ => .bind_id (.text rfl) <|
    .bind hg.expr fun _ => .bind_id (.text rfl) (.pure (by grind))

lemma takes_const : J.Reads own bare const g g' s := by
  refine .bind_id (.text rfl) <| .bind (lasts_globalTail hg) fun {a b} hab => ?_
  obtain ⟨hname, hrest⟩ := Prod.mk.inj hab.1
  obtain ⟨htype, hvalue⟩ := Prod.mk.inj hrest
  exact .pure (by grind)

lemma takes_static : J.Reads own bare static g g' s := by
  refine .bind_id (.text rfl) <| .bind_id (.eat rfl) <| .bind (lasts_globalTail hg) fun {a b} hab => ?_
  obtain ⟨hname, hrest⟩ := Prod.mk.inj hab.1
  obtain ⟨htype, hvalue⟩ := Prod.mk.inj hrest
  exact .pure (by grind)

lemma takes_comptimeItem (h : isOrdinary s.kind) :
    J.Reads own bare comptimeItem g g' s := by
  refine .nextKind_bind (.bind_id (.token h) ?_)
  split
  · exact .bind (.of_takes fun h => takes_function (hg.after h)) fun _ => .pure (by grind)
  · refine .bind (lasts_assertion hg) fun {a b} hab => .bind_id (.text rfl) ?_
    obtain ⟨hcondition, hmessage⟩ := Prod.mk.inj hab.1
    exact .pure (by grind)
  · exact .refuseExpected

lemma takes_itemKind : J.Reads own bare itemKind g g' s := by
  refine .kind_bind ?_
  split
  · exact takes_importDecl
  · exact .bind (takes_function hg) fun _ => .pure (by grind)
  · exact takes_comptimeItem hg (by simp only [*]; rfl)
  · exact .bind_id (.seen ‹_› rfl) <| .bind (.of_takes fun h => takes_function (hg.after h)) fun _ => .pure (by grind)
  iterate 2 exact takes_struct hg (by simp only [*]; rfl)
  · exact takes_enum hg
  · exact takes_trait hg
  · exact takes_impl hg
  · exact takes_const hg
  · exact takes_static hg
  · exact .refuseExpected

end

/-- The node is numbered first, so that its kind is read from a later state. -/
lemma takes_item (hg : ∀ {s'}, J.Le s s' → J.Table g g' s') : J.Reads own Item.bare item g g' s :=
  .here_bind (.after J.holds_freshId fun _ _ _ _ hle => .bind (takes_itemKind (hg hle)) fun hkind =>
    .span_bind <| .pure ⟨by simp only [Item.bare, hkind.1], by simp_all +contextual⟩)

/-! ## All productions -/

/-- A judgement that does not depend on how much is left. -/
structure Judgement.Total (J : Judgement) : Prop where
  lt (s s' : State) : J.Lt s s'
  told {α : Type} {p : Parse α} (c : Courses p) : J.Told p
  exhausted : ∀ {α γ own own' q s} {v : α → γ}, J.Takes own own' v (throw .exhausted) q s
  nested : ∀ {α γ own own' p q} {v : α → γ}, (∀ s, J.Takes own own' v p q s) →
    ∀ s, J.Takes own own' v (nested p) (nested q) s

lemma Judgement.Total.table (h : J.Total) : ∀ {n m}, n ≤ m → ∀ s, J.Table (productions n) (productions m) s
  | 0, m, _, s =>
    { told := fun c => h.told (c (productionsCourses 0))
      types := fun _ => h.exhausted
      patterns := fun _ => h.exhausted
      exprs := fun _ => h.exhausted
      blocks := fun _ => h.exhausted
      conditionals := fun _ => h.exhausted
      comptimeIfs := fun _ => h.exhausted
      stmts := fun _ => h.exhausted }
  | n + 1, m + 1, hle, s => by
    have hg := h.table (Nat.le_of_succ_le_succ hle)
    have hblock {own : List Bracket} {s : State} : J.Takes own own _ _ _ s := (hg s).blocks (h.lt s s)
    have hexpr {own : List Bracket} {s : State} : J.Takes own own _ ((productions n).exprAbove 0) _ s :=
      (hg s).exprs (h.lt s s)
    exact
      { told := fun c => h.told (c (productionsCourses (n + 1)))
        types := fun _ => h.nested (fun s => takes_typeExpr (hg s)) _
        patterns := fun _ => h.nested (fun s => takes_pattern (hg s)) _
        exprs := fun _ => h.nested (fun s => takes_exprAbove (hg s) hblock) _
        blocks := fun _ => h.nested (fun s => takes_block (hg s)) _
        conditionals := fun _ => takes_conditional (hg _)
        comptimeIfs := fun _ => takes_comptimeIf (hg _)
        stmts := fun _ => by exact takes_stmt (hg _) hblock hexpr }

end Kite.Grammar
