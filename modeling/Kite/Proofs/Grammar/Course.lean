/-
The course of a run. A production is made of steps, and what a run of it does on the way cannot be
told from its result: a recovery hides that something was refused. `Course p s` says how `p` is
made of steps where they are taken from the state `s` on, and `Course.refuses` whether one of the
steps that are taken refuses its input. Every production of the grammar has a course from every
state, so that the question has an answer for all of them.

Only five kinds of steps refuse: one that expects another token, one that reports something else,
one that takes a literal, one that closes an angle, and one that would nest too deeply.
-/
import Kite.Proofs.Grammar.Printed
import Kite.Proofs.Grammar.Ending

namespace Kite.Grammar

/-- How a run of `p` from `s` is made of steps. A part is listed with the state in which it starts. -/
inductive Course : {α : Type} → Parse α → State → Type 1 where
  | pure (a : α) : Course (pure a) s
  | get : Course get s
  | bump : Course bump s
  | freshId : Course freshId s
  | report (code : String) (span : Span) (message : String) : Course (report code span message) s
  | forget : Course (modify fun s => { s with depthReported := false } : Parse Unit) s
  | exhausted : Course (throw .exhausted : Parse α) s
  | refuseExpected (what : String) : Course (refuseExpected what : Parse α) s
  | reject (code : String) (span : Span) (message : String) :
    Course (do Grammar.report code span message; refuse : Parse α) s
  | literal {s : State} (h : s.kind ∈ literalKinds) : Course literalExpr s
  | closeAngle : Course closeAngle s
  | bind {p : Parse α} {f : α → Parse β} {s : State} (first : Course p s)
    (rest : ∀ a s', p s = (.ok a, s') → Course (f a) s') : Course (p >>= f) s
  | nested (inner : Course p s.enter) : Course (nested p) s
  | recovering {p r : Parse α} {s : State} (first : Course p s)
    (rest : ∀ s', p s = (.error .refused, s') → Course r s') : Course (recovering p r) s

variable {α β σ : Type} {s s' : State} {g : Productions}

abbrev Courses (p : Parse α) : Type 1 := ∀ s, Course p s

namespace Course

def refuses : {α : Type} → {p : Parse α} → {s : State} → Course p s → Bool
  | _, _, _, pure _ | _, _, _, get | _, _, _, bump | _, _, _, freshId | _, _, _, report .. | _, _, _, forget
  | _, _, _, exhausted => false
  | _, _, _, refuseExpected _ | _, _, _, reject .. => true
  | _, _, s, literal _ => s.current.value.isNone
  | _, _, s, closeAngle => s.kind != .symbol .gt && (afterAngle? s.kind).isNone
  | _, _, s, bind (p := p) first rest =>
    first.refuses ||
      match h : p s with
      | (.ok a, s') => (rest a s' h).refuses
      | (.error _, _) => false
  | _, _, s, nested inner => s.maxDepth < s.depth + 1 || inner.refuses
  | _, _, s, recovering (p := p) first rest =>
    first.refuses ||
      match h : p s with
      | (.error .refused, s') => (rest s' h).refuses
      | (.error .exhausted, _) | (.ok _, _) => false

end Course

lemma closeAngle_run_of_eq (h : s.kind = .symbol .gt) : closeAngle s = (.ok (), s.advance) := by
  unfold closeAngle
  rw [bind_run (get_run s), if_pos (by simp [h])]
  rfl

lemma closeAngle_run_of_ne (h : s.kind ≠ .symbol .gt) : closeAngle s =
    match afterAngle? s.kind with
    | none => (refuseExpected "`>`" : Parse Unit) s
    | some rest =>
      let span := s.current.span
      (.ok (), { s with current :=
        { s.current with
          kind := rest
          span := { span with start := span.start + 1, column := span.column + 1 } } }) := by
  unfold closeAngle
  rw [bind_run (get_run s), if_neg (by simp [h])]
  cases afterAngle? s.kind <;> rfl

namespace Course

variable {p q r : Parse α} {f : α → Parse β} {first : Course p s}

variable {rest : ∀ a s', p s = (.ok a, s') → Course (f a) s'}

lemma refuses_bind_of_ok
    (h : p s = (.ok a, s')) : (bind first rest).refuses = (first.refuses || (rest a s' h).refuses) := by
  rw [refuses]
  congr 1
  split
  · rename_i hrun
    cases h.symm.trans hrun
    rfl
  · rename_i hrun
    cases h.symm.trans hrun

lemma refuses_bind_of_error (h : p s = (.error stop, s')) : (bind first rest).refuses = first.refuses := by
  rw [refuses]
  split
  · rename_i hrun
    cases h.symm.trans hrun
  · rw [Bool.or_false]

variable {rest : ∀ s', p s = (.error .refused, s') → Course r s'}

lemma refuses_recovering_of_refused
    (h : p s = (.error .refused, s')) : (recovering first rest).refuses = (first.refuses || (rest s' h).refuses) := by
  rw [refuses]
  congr 1
  split
  · rename_i hrun
    cases h.symm.trans hrun
    rfl
  all_goals
    rename_i hrun
    cases h.symm.trans hrun

lemma refuses_recovering_of_ne (h : (p s).1 ≠ .error .refused) : (recovering first rest).refuses = first.refuses := by
  rw [refuses]
  split
  · rename_i hrun
    exact absurd (by rw [hrun]) h
  all_goals rw [Bool.or_false]

/-! ## Steps -/

def read_bind {a : α} (look : Course p s) (h : p s = (.ok a, s)) (rest : Course (f a) s) : Course (p >>= f) s :=
  .bind look fun b s' hrun => by
    rw [h] at hrun
    cases hrun
    exact rest

def kind_bind {f : TokenKind → Parse β} (rest : Course (f s.kind) s) : Course (kind >>= f) s :=
  read_bind (.bind .get fun _ _ _ => .pure _) (kind_run s) rest

def here_bind {f : Span → Parse β} (rest : Course (f s.current.span) s) : Course (here >>= f) s :=
  read_bind (.bind .get fun _ _ _ => .pure _) (here_run s) rest

def ite {c : Prop} [Decidable c] (yes : c → Course p s) (no : ¬ c → Course q s) : Course (if c then p else q) s :=
  if h : c then by rw [if_pos h]; exact yes h else by rw [if_neg h]; exact no h

end Course

namespace Courses

variable {p q : Parse α} {f : α → Parse β}

def pure {a : α} : Courses (pure a) := fun _ => .pure a

def get : Courses get := fun _ => .get

def bind (first : Courses p) (rest : ∀ {a}, Courses (f a)) : Courses (p >>= f) :=
  fun s => .bind (first s) fun _ s' _ => rest s'

def ite {c : Prop} [Decidable c] (yes : Courses p) (no : Courses q) : Courses (if c then p else q) :=
  fun s => .ite (fun _ => yes s) fun _ => no s

def kind : Courses kind := bind get pure

def nextKind : Courses nextKind := bind get pure

def here : Courses here := bind get pure

def isAt {expected : TokenKind} : Courses (isAt expected) := bind kind pure

def spanFrom {start : Span} : Courses (spanFrom start) := bind get pure

def freshId : Courses freshId := fun _ => .freshId

def bump : Courses bump := fun _ => .bump

def refuseExpected {what : String} : Courses (refuseExpected what : Parse α) := fun _ => .refuseExpected what

def reject (code : String) (span : Span) (message : String) : Courses (do report code span message; refuse : Parse α) :=
  fun _ => .reject code span message

def reportExpected (what : String) : Courses (reportExpected what) := bind get <| ite pure fun _ => .report _ _ _

def eat {expected : TokenKind} : Courses (eat expected) := bind isAt <| ite (bind bump pure) pure

def expect {expected : TokenKind} {what : String} : Courses (expect expected what) :=
  bind isAt <| ite bump refuseExpected

def expectText {expected : TokenKind} : Courses (expectText expected) := bind expect pure

def ident {what : String} : Courses (ident what) := bind expect pure

def node {start : Span} {f : NodeId → Span → α} : Courses
    (do return f (← Grammar.freshId) (← Grammar.spanFrom start) : Parse α) := bind freshId <| bind spanFrom pure

def closeAngle : Courses closeAngle := fun _ => .closeAngle

def nested (inner : Courses p) : Courses (nested p) := fun s => .nested (inner s.enter)

def recovering (first : Courses p) (rest : Courses q) : Courses (recovering p q) :=
  fun s => .recovering (first s) fun s' _ => rest s'

def iterate {step : σ → Parse (σ ⊕ β)} (round : ∀ a, Courses (step a)) : ∀ fuel a, Courses (iterate step fuel a)
  | 0, _ => fun _ => .exhausted
  | fuel + 1, a => bind (round a) fun {r} =>
    match r with
    | .inl next => iterate round fuel next
    | .inr _ => pure

def repeatFrom {step : σ → Parse (σ ⊕ β)} (round : ∀ a, Courses (step a)) (a : σ) : Courses (repeatFrom a step) :=
  bind get <| iterate round _ a

def commaRound {item : Parse α} (inner : Courses item) (isEnd : TokenKind → Bool) :
    ∀ state, Courses (commaRound isEnd item state)
  | (_, _) => bind kind <| ite pure <| bind inner <| bind eat <| ite pure pure

def commaList {item : Parse α} (inner : Courses item) (isEnd : TokenKind → Bool) : Courses (commaList isEnd item) :=
  repeatFrom (commaRound inner isEnd) _

def itemsBefore {item : Parse α} (inner : Courses item) (close : Symbol) : Courses (itemsBefore close item) :=
  bind (commaList inner _) pure

def skipTo (decide : Nat → Bool → TokenKind → Sync) : Courses (skipTo decide) :=
  repeatFrom (fun (_, _) => bind kind <| ite pure (by
    split
    · exact pure
    · exact bind bump pure
    · exact bind bump pure)) _

def syncItem : Courses syncItem := skipTo _

def syncStmt : Courses syncStmt := bind (fun _ => .forget) <| skipTo _

def syncArm : Courses syncArm := skipTo _

end Courses

def Course.eat_bind {expected : TokenKind} {f : Bool → Parse β} (yes : Courses (f true))
    (no : s.kind ≠ expected → Course (f false) s) : Course (eat expected >>= f) s :=
  .bind (Courses.eat s) fun b s' hrun =>
    if h : s.kind = expected then by
      rw [eat_run_of_eq h] at hrun
      cases hrun
      exact yes _
    else by
      rw [eat_run_of_ne h] at hrun
      cases hrun
      exact no h

/-! ## Productions -/

structure Productions.Courses (g : Productions) : Type 1 where
  type : Grammar.Courses g.type
  pattern : Grammar.Courses g.pattern
  exprAbove : ∀ least, Grammar.Courses (g.exprAbove least)
  block : Grammar.Courses g.block
  conditional : Grammar.Courses g.conditional
  comptimeIf : Grammar.Courses g.comptimeIf
  stmt : ∀ closer, Grammar.Courses (g.stmt closer)

def Productions.Courses.expr (c : g.Courses) : Grammar.Courses g.expr := c.exprAbove 0

section

variable (c : g.Courses)

/-! ### Types -/

def constArgCourse (h : s.kind = .intLiteral ∨ s.kind = .symbol .lbrace) : Course (constArg g) s := by
  have hend (start : Span) (value : Expr) : Courses
      (do return ⟨← freshId, .const value, ← spanFrom start⟩ : Parse TypeExpr) :=
    .node
  refine .here_bind (.eat_bind (fun s => .ite (fun _ => ?_) fun h => absurd rfl h) fun hkind =>
    .ite (fun h => by cases h) fun _ => ?_)
  · exact (Courses.bind c.expr <| .bind .expectText <| .bind .pure <| hend _ _) s
  · refine .bind (.literal (by simp_all [literalKinds])) fun _ s' _ => ?_
    exact (Courses.bind .freshId <| .bind .spanFrom <| .bind .pure <| hend _ _) s'

def genericArgCourses : Courses (genericArg g) := fun s =>
  .kind_bind (.ite (fun h => constArgCourse c (by simpa using h)) fun _ => c.type s)

def genericArgsCourses : Courses (genericArgs g) :=
  .bind .expectText <| .bind (.commaList (genericArgCourses c) _) <| .bind .closeAngle .pure

def segmentRoundCourses (segments : Array Ident) : Courses (segmentRound segments) :=
  .bind .isAt <| .bind .nextKind <| .ite (.bind .bump <| .bind .ident .pure) .pure

def optionalMarksCourses (start : Span) (type : TypeExpr) : Courses (optionalMarks start type) :=
  .repeatFrom (fun _ => .bind .eat <| .ite .node .pure) type

def pathTypeCourses : Courses (pathType g) := by
  refine .bind .here <| .bind .ident <| .bind (.repeatFrom segmentRoundCourses _) ?_
  refine .bind .isAt <| .ite ?_ ?_
  · exact .bind (genericArgsCourses c) <| .bind .spanFrom .pure
  · exact .bind .pure <| .bind .spanFrom .pure

def typeKindCourses : Courses (typeKind g) := by
  refine .bind .kind fun {kind} => ?_
  split
  · refine .bind .bump <| .bind c.type <| .bind .eat <| .ite ?_ ?_
    · exact .bind c.expr <| .bind .expectText .pure
    · exact .bind .expect .pure
  · exact .bind .bump <| .bind .eat <| .bind c.type .pure
  · exact .bind .bump <| .bind c.type .pure
  · refine .bind .bump <| .bind .expectText <| .bind (.itemsBefore c.type _) ?_
    refine .bind .expectText <| .bind .eat ?_
    exact .ite (.bind c.type .pure) (.bind .freshId <| .bind .get .pure)
  · exact .bind (pathTypeCourses c) .pure
  · exact .refuseExpected

def typeExprCourses : Courses (typeExpr g) := by
  refine .bind .here <| .bind .eat <| .ite ?_ ?_
  · refine .bind (.commaList c.type _) <| .bind .expectText ?_
    split
    · exact .bind .spanFrom <| optionalMarksCourses _ _
    · exact .bind .freshId <| .bind .spanFrom <| optionalMarksCourses _ _
  · exact .bind (typeKindCourses c) <| .bind .freshId <| .bind .spanFrom <| optionalMarksCourses _ _

/-! ### Patterns -/

def literalPatternCourses (negative : Bool) : Courses (literalPattern negative) := by
  refine .bind .bump fun {token} => ?_
  split
  · exact .pure
  · exact .reject _ _ _

def namePatternCourses : Courses (namePattern g) := by
  refine .bind .ident <| .bind (.repeatFrom (fun _ => .bind .eat <| .ite (.bind .ident .pure) .pure) _) ?_
  refine .bind .isAt <| .ite .pure (.bind .eat <| .ite ?_ .pure)
  exact .bind (.itemsBefore c.pattern _) <| .bind .expectText .pure

def patternKindCourses : Courses (patternKind g) := by
  refine .bind .kind fun {kind} => ?_
  have htoken (kind : PatternKind) : Courses (do let _ ← bump; return kind : Parse PatternKind) := .bind .bump .pure
  split
  · exact htoken _
  · exact .bind .nextKind <| .ite (.bind .bump <| literalPatternCourses _) .refuseExpected
  iterate 4 exact literalPatternCourses _
  iterate 3 exact htoken _
  · exact .bind .bump <| .bind .expectText <| .bind c.pattern <| .bind .expectText .pure
  · exact namePatternCourses c
  · exact .refuseExpected

def patternCourses : Courses (pattern g) :=
  .bind .here <| .bind (patternKindCourses c) <| .node

/-! ### Expressions -/

def pathRoundCourses (segments : Array PathSegment) : Courses (pathRound g segments) := by
  refine .bind .isAt <| .ite .pure (.bind .nextKind fun {following} => .bind .bump ?_)
  split
  · exact .bind (genericArgsCourses c) .pure
  · exact .bind .ident .pure
  · exact .refuseExpected

def pathExprCourses : Courses (pathExpr g) :=
  .bind .here <| .bind .ident <| .bind (.repeatFrom (pathRoundCourses c) _) <| .bind .spanFrom .pure

def parenthesisedCourses : Courses (parenthesised g) := by
  refine .bind .bump <| .bind .eat <| .ite .pure ?_
  refine .bind c.expr <| .bind .eat <| .ite ?_ ?_
  · exact .bind (.itemsBefore c.expr _) <| .bind .expectText .pure
  · exact .bind .expectText .pure

def bracketedCourses : Courses (bracketed g) := by
  refine .bind .bump <| .bind .eat <| .ite .pure ?_
  refine .bind c.expr <| .bind .eat <| .ite ?_ ?_
  · exact .bind c.expr <| .bind .expectText .pure
  · refine .bind .eat <| .ite ?_ ?_
    · exact .bind (.itemsBefore c.expr _) <| .bind .expect .pure
    · exact .bind .pure <| .bind .expect .pure

def conditionalCourses : Courses (conditional g) := by
  refine .bind .expectText <| .bind c.expr <| .bind c.block ?_
  refine .bind .eat <| .ite (.bind .here <| .bind .isAt <| .ite ?_ ?_) .pure
  · exact .bind c.conditional <| .node
  · exact .bind c.block <| .bind .pure <| .node

def matchArmCourses : Courses (matchArm g) := by
  refine .bind .here <| .bind c.pattern <| .bind (.repeatFrom (fun _ => .bind .eat <|
    .ite (.bind c.pattern .pure) .pure) _) ?_
  refine .bind .expectText <| .bind c.expr <| .bind .eat <| .bind .isAt ?_
  refine .ite ?_ ?_
  · exact .bind .refuseExpected <| .node
  · exact .node

def armRoundCourses (arms : Array MatchArm) : Courses (armRound g arms) := by
  refine .bind .kind fun {kind} => ?_
  split
  · exact .pure
  · exact .refuseExpected
  · exact .recovering (.bind (matchArmCourses c) .pure) (.bind .syncArm .pure)

def matchExprCourses : Courses (matchExpr g) :=
  .bind .expectText <| .bind c.expr <| .bind .expectText <|
    .bind (.repeatFrom (armRoundCourses c) _) <| .bind .expectText .pure

def primaryKindCourses : Courses (primaryKind g) := fun s => by
  refine .kind_bind ?_
  have htoken (kind : ExprKind) : Courses (do let _ ← bump; return kind : Parse ExprKind) := .bind .bump .pure
  split
  iterate 4 exact .literal (by simp [*, literalKinds])
  iterate 3 exact htoken _ s
  · exact (Courses.bind .bump <| .bind .expectText <| .bind c.expr <| .bind .expectText .pure) s
  · exact htoken _ s
  · exact pathExprCourses c s
  · exact parenthesisedCourses c s
  · exact bracketedCourses c s
  · exact conditionalCourses c s
  · exact matchExprCourses c s
  · exact (Courses.bind c.block .pure) s
  · exact (Courses.bind .bump <| .bind c.block .pure) s
  · exact (Courses.bind .bump <| .bind .kind <| .ite .pure (.bind c.expr .pure)) s
  iterate 2 exact htoken _ s
  · exact .refuseExpected _

def primaryCourses : Courses (primary g) :=
  .bind .here <| .bind (primaryKindCourses c) <| .node

def argumentCourses : Courses (argument g) :=
  .bind .isAt <| .bind .nextKind <| .ite (.bind .ident <| .bind .bump <| .bind c.expr .pure) (.bind c.expr .pure)

def argumentsCourses : Courses (arguments g) :=
  .bind .expectText <| .bind (.itemsBefore (argumentCourses c) _) <| .bind .expect .pure

def memberCourses (base : Expr) : Courses (member g base) := by
  have hbad (token : Token) : Courses (member.badIndex token) := .reject _ _ _
  refine .bind .kind fun {kind} => ?_
  split
  · have hrest (name : Ident) (generics : List TypeExpr) : Courses
        (do
          if ← isAt (.symbol .lparen) then
            return .methodCall base name generics (← arguments g)
          if !generics.isEmpty then refuseExpected "`(` after generic arguments"
          return .field base name : Parse ExprKind) :=
      .bind .isAt <| .ite (.bind (argumentsCourses c) .pure) (.ite (.bind .refuseExpected .pure) .pure)
    refine .bind .ident <| .bind .isAt <| .bind .nextKind <| .ite ?_ ?_
    · exact .bind .bump <| .bind (genericArgsCourses c) <| hrest _ _
    · exact .bind .pure <| hrest _ _
  · refine .bind .bump fun {token} => ?_
    split
    · exact .ite .pure (hbad token)
    · exact hbad token
  · exact .refuseExpected

def postfixKindCourses (base : Expr) : Courses (postfixKind? g base) := by
  refine .bind .kind fun {kind} => ?_
  split
  · exact .bind (argumentsCourses c) .pure
  · exact .bind .bump <| .bind c.expr <| .bind .expectText .pure
  · exact .bind .bump .pure
  · exact .bind .bump <| .bind (memberCourses c base) .pure
  · exact .pure

def postfixRoundCourses (start : Span) (expr : Expr) : Courses (postfixRound g start expr) := by
  refine .bind (postfixKindCourses c expr) fun {kind?} => ?_
  split
  · exact .pure
  · exact .node

def postfixExprCourses : Courses (postfixExpr g) :=
  .bind .here <| .bind (primaryCourses c) <| .repeatFrom (postfixRoundCourses c _) _

def unaryExprCourses : Courses (unaryExpr g) := by
  refine .bind .here <| .bind .kind <| .bind .nextKind fun {_} => ?_
  split
  · exact postfixExprCourses c
  · refine .bind .bump <| .ite (.bind .bump ?_) ?_
    all_goals exact .bind (c.exprAbove _) <| .node

def operatorRoundCourses (least : Nat) (start : Span) (state : Expr × Option Nat) :
    Courses (operatorRound g least start state) := by
  obtain ⟨lhs, unchained⟩ := state
  refine .bind .kind fun {token} => .ite (.ite .pure ?_) ?_
  · exact .bind .bump <| .bind c.type <| .node
  · split
    · exact .pure
    · refine .ite .pure (.ite (.bind .here <| .reject _ _ _) (.bind .bump fun {_} => ?_))
      exact .bind (c.exprAbove _) <| .node

def exprAboveCourses (least : Nat) : Courses (exprAbove g least) :=
  .bind .here <| .bind (unaryExprCourses c) <| .repeatFrom (operatorRoundCourses c least _) _

/-! ### Statements -/

def assertionCourses : Courses (assertion g) := by
  refine .bind .expectText <| .bind .expectText <| .bind c.expr fun {_} => ?_
  have hend (condition : Expr) (message : Option Expr) : Courses
      (do expectText (.symbol .rparen); return (condition, message) : Parse (Expr × Option Expr)) :=
    .bind .expectText .pure
  refine .bind .eat <| .ite (.bind .isAt <| .ite ?_ ?_) ?_
  · exact .bind .pure <| hend _ _
  · exact .bind c.expr <| .bind .pure <| hend _ _
  · exact .bind .pure <| hend _ _

def comptimeIfCourses : Courses (comptimeIf g) := by
  refine .bind .expectText <| .bind c.expr <| .bind c.block ?_
  refine .bind .eat <| .ite (.bind .here <| .bind .isAt <| .ite ?_ ?_) .pure
  · exact .bind c.comptimeIf <| .node
  · exact .bind c.block <| .bind .freshId <| .bind .pure <| .node

def letStmtCourses : Courses (letStmt g) := by
  have hend (name : Ident) (isMut : Bool) (type : Option TypeExpr) : Courses
      (do
        expectText (.symbol .eq)
        let init ← g.expr
        expectText (.symbol .semi)
        return .letDecl name isMut type init : Parse StmtKind) :=
    .bind .expectText <| .bind c.expr <| .bind .expectText .pure
  refine .bind .bump <| .bind .eat <| .bind .ident <| .bind .eat <| .ite ?_ ?_
  · exact .bind c.type <| .bind .pure <| hend _ _ _
  · exact .bind .pure <| hend _ _ _

def forStmtCourses : Courses (forStmt g) :=
  .bind .bump <| .bind .ident <| .bind .expectText <| .bind c.expr <| .bind c.block .pure

def stmtCourses (closer : TokenKind) : Courses (stmt g closer) := by
  have hfinish (start : Span) (kind : StmtKind) : Courses
      (do return .stmt ⟨← freshId, kind, ← spanFrom start⟩ : Parse StmtOrTail) :=
    .node
  refine .bind .here fun {start} => .bind .kind fun {token} => .bind .nextKind fun {following} => ?_
  split
  · exact .bind (letStmtCourses c) <| hfinish _ _
  · exact .bind .bump <| .bind c.expr <| .bind c.block <| hfinish _ _
  · exact .bind .bump <| .bind c.block <| hfinish _ _
  · exact .bind (forStmtCourses c) <| hfinish _ _
  · refine .bind .bump <| .bind (c.stmt closer) fun {inner} => ?_
    split
    · exact hfinish _ _
    · exact .bind .freshId <| hfinish _ _
  · exact .bind .bump <| .bind (comptimeIfCourses c) <| hfinish _ _
  · exact .bind .bump <| .bind (assertionCourses c) <| .bind .expectText <| hfinish _ _
  · refine .ite (.reject _ _ _) (.ite (.bind (primaryCourses c) ?_) (.bind c.expr ?_))
    all_goals exact .bind .eat <| .ite (hfinish _ _) (.bind .isAt <| .ite .pure (.ite (hfinish _ _) .refuseExpected))

def blockRoundCourses (state : Array Stmt × Option Expr) : Courses (blockRound g state) := by
  obtain ⟨stmts, tail⟩ := state
  refine .bind .kind fun {kind} => ?_
  split
  · exact .pure
  · exact .refuseExpected
  · exact .bind .bump .pure
  · refine .recovering (.bind (stmtCourses c _) fun {stmt} => ?_) (.bind .syncStmt .pure)
    split
    · exact .pure
    · exact .pure

def blockCourses : Courses (block g) :=
  .bind .here <| .bind .expectText <| .bind .freshId <|
    .bind (.repeatFrom (blockRoundCourses c) _) <| .bind .expectText <| .bind .spanFrom .pure

/-! ### Declarations -/

omit c in
def importDeclCourses : Courses importDecl := by
  have hend (unit : Ident) (newName : Option Ident) : Courses
      (do expectText (.symbol .semi); return .importUnit { unit, newName } : Parse ItemKind) :=
    .bind .expectText .pure
  refine .bind .expectText <| .bind .ident <| .bind .eat ?_
  exact .ite (.bind .ident <| .bind .pure <| hend _ _) (.bind .pure <| hend _ _)

def genericParamCourses : Courses (genericParam g) := by
  refine .bind .freshId <| .bind .eat <| .ite ?_ ?_
  · exact .bind .ident <| .bind .expectText <| .bind c.type .pure
  · refine .bind .ident <| .bind .eat <| .ite (.bind (.repeatFrom (fun _ => ?_) _) .pure) .pure
    exact .bind (pathTypeCourses c) <| .bind .eat <| .ite .pure .pure

def genericParamsCourses : Courses (genericParams g) :=
  .bind .eat <| .ite .pure (.bind (.commaList (genericParamCourses c) _) <| .bind .closeAngle .pure)

omit c in
def receiverCourses : Courses receiver? := by
  refine .bind .kind <| .bind .nextKind fun {_} => ?_
  split
  · exact .bind .bump .pure
  · exact .bind .bump <| .bind .bump .pure
  · exact .pure

def paramCourses : Courses (param g) :=
  .bind .here <| .bind .eat <| .bind .ident <| .bind .expectText <|
    .bind c.type <| .node

def functionBodyCourses : Courses (functionBody g) :=
  .bind .isAt <| .ite (.bind c.block .pure) (.bind .eat <|
    .ite (.bind c.expr <| .bind .expectText .pure) (.bind .eat <| .ite .pure .refuseExpected))

def functionCourses (isComptime isForeign : Bool) : Courses (function g isComptime isForeign) := by
  refine .bind .here <| .bind .expectText <| .bind .freshId <| .bind .ident ?_
  refine .bind (genericParamsCourses c) <| .bind .expectText <| .bind receiverCourses ?_
  refine .bind .isAt <| .ite (.bind .expect ?_) ?_
  all_goals
    refine .bind (.itemsBefore (paramCourses c) _) <| .bind .expectText <| .bind .eat ?_
    refine .ite (.bind c.type <| .bind .pure ?_) (.bind .pure ?_)
    all_goals exact .bind (functionBodyCourses c) <| .bind .spanFrom .pure

def methodCourses : Courses (method? g) := by
  refine .bind .kind <| .bind .nextKind fun {_} => ?_
  split
  · exact .bind (functionCourses c _ _) .pure
  · exact .bind .bump <| .bind (functionCourses c _ _) .pure
  · exact .pure

def membersCourses {other : Parse α} (inner : Courses other) : Courses (members g other) := by
  refine .bind .expectText <| .bind (.repeatFrom (fun (_, _) => ?_) _) <| .bind .expectText .pure
  refine .bind .isAt <| .ite .pure (.bind (methodCourses c) fun {method?} => ?_)
  split
  · exact .pure
  · exact .bind inner .pure

omit c in
def fieldEndCourses : Courses fieldEnd :=
  .bind .eat <| .ite .pure (.bind .eat <| .ite .pure (.bind .isAt <| .bind .kind <| .ite .refuseExpected .pure))

def fieldCourses : Courses (field g) := by
  refine .bind .isAt <| .ite (.bind .refuseExpected ?_) ?_
  all_goals
    refine .bind .here <| .bind .ident <| .bind .expectText <| .bind c.type fun {_} => ?_
    exact .bind .freshId <| .bind .spanFrom <| .bind fieldEndCourses .pure

def structCourses : Courses (struct g) :=
  .bind .bump <| .bind .ident <| .bind (genericParamsCourses c) <| .bind (membersCourses c (fieldCourses c)) .pure

def variantCourses : Courses (variant g) := by
  refine .bind .here <| .bind .ident <| .bind .eat ?_
  refine .ite (.bind (.itemsBefore c.type _) <| .bind .expectText <| .bind .pure ?_)
    (.bind .pure ?_)
  all_goals
    refine .bind .eat <| .ite (.bind c.expr <| .bind .pure ?_) (.bind .pure ?_)
    all_goals
      refine .bind .freshId <| .bind .spanFrom <| .bind .eat <| .ite ?_ .pure
      exact .bind .isAt <| .bind .kind <| .ite (.bind .refuseExpected .pure) .pure

def enumCourses : Courses (enum g) := by
  refine .bind .expectText <| .bind .ident <| .bind (genericParamsCourses c) ?_
  refine .bind .eat <| .ite (.bind c.type <| .bind .pure fun {_} => ?_) (.bind .pure fun {_} => ?_)
  all_goals exact .bind (membersCourses c (variantCourses c)) .pure

def requiredRoundCourses (methods : Array FunctionDecl) : Courses (requiredRound g methods) := by
  refine .bind .kind fun {kind} => ?_
  split
  · exact .pure
  · exact .refuseExpected
  · exact .bind (functionCourses c _ _) .pure

def traitCourses : Courses (trait g) :=
  .bind .expectText <| .bind .ident <| .bind .expectText <|
    .bind (.repeatFrom (requiredRoundCourses c) _) <| .bind .expectText .pure

def implHeadCourses : Courses (implHead g) := by
  refine .bind c.type fun {first} => .bind .eat <| .ite ?_ .pure
  split
  · exact .bind c.type .pure
  · exact .reject _ _ _

def implCourses : Courses (impl g) :=
  .bind .expectText <| .bind (genericParamsCourses c) <| .bind (implHeadCourses c) <|
    .bind (membersCourses c .refuseExpected) .pure

def globalTailCourses (what : String) : Courses (globalTail g what) :=
  .bind .ident <| .bind .expectText <| .bind c.type <| .bind .expectText <| .bind c.expr <| .bind .expectText .pure

def constCourses : Courses (const g) := .bind .expectText <| .bind (globalTailCourses c _) .pure

def staticCourses : Courses (static g) := .bind .expectText <| .bind .eat <| .bind (globalTailCourses c _) .pure

def comptimeItemCourses : Courses (comptimeItem g) := by
  refine .bind .nextKind fun {following} => .bind .bump ?_
  split
  · exact .bind (functionCourses c _ _) .pure
  · exact .bind (assertionCourses c) <| .bind .expectText .pure
  · exact .refuseExpected

def itemKindCourses : Courses (itemKind g) := by
  refine .bind .kind fun {kind} => ?_
  split
  · exact importDeclCourses
  · exact .bind (functionCourses c _ _) .pure
  · exact comptimeItemCourses c
  · exact .bind .bump <| .bind (functionCourses c _ _) .pure
  iterate 2 exact structCourses c
  · exact enumCourses c
  · exact traitCourses c
  · exact implCourses c
  · exact constCourses c
  · exact staticCourses c
  · exact .refuseExpected

def itemCourses : Courses (item g) :=
  .bind .here <| .bind .freshId <| .bind (itemKindCourses c) <| .bind .spanFrom .pure

/-! ### Whole texts -/

def itemRoundCourses (items : Array Item) : Courses (itemRound g items) :=
  .bind .isAt <| .ite .pure (.recovering (.bind (itemCourses c) .pure) (.bind .syncItem .pure))

def moduleItemsCourses : Courses (moduleItems g) := .repeatFrom (itemRoundCourses c) _

def wholeExprCourses : Courses (wholeExpr g) :=
  .bind c.expr <| .bind .isAt <| .ite (.bind (.reportExpected _) .pure) .pure

end

def productionsCourses : ∀ n, (productions n).Courses
  | 0 =>
    { type := fun _ => .exhausted
      pattern := fun _ => .exhausted
      exprAbove := fun _ _ => .exhausted
      block := fun _ => .exhausted
      conditional := fun _ => .exhausted
      comptimeIf := fun _ => .exhausted
      stmt := fun _ _ => .exhausted }
  | n + 1 =>
    let c := productionsCourses n
    { type := .nested (typeExprCourses c)
      pattern := .nested (patternCourses c)
      exprAbove := fun least => .nested (exprAboveCourses c least)
      block := .nested (blockCourses c)
      conditional := conditionalCourses c
      comptimeIf := comptimeIfCourses c
      stmt := fun closer => by rw [productions_stmt]; exact stmtCourses c closer }

end Kite.Grammar
