/-
Well levelled trees are read back. Parsing the words of a tree takes one round of the operator loop
for each infix node on the left edge of the tree; the operands on the right are read by recursion,
each with the least power that its operator leaves it. What has to hold of the token behind the
tree is that no operator of the tree would take it (`closes`).
-/
import Kite.Proofs.Grammar.Steps

namespace Kite.Grammar

open List OpTree

variable {s s' : State} {rest : List Word} {t operand : OpTree} {op : InfixOp} {symbol : Symbol} {least level : Nat}

/-! ## States that are reached -/

/-- `s'` is reached from `s` without a report, and `rest` is left there. -/
structure Reaches (s : State) (rest : List Word) (s' : State) : Prop where
  words : s'.words = rest
  depth : s'.depth = s.depth
  maxDepth : s'.maxDepth = s.maxDepth
  diagnostics : s'.diagnostics = s.diagnostics

lemma Reaches.trans (h : Reaches s rest s') (h' : Reaches s' rest' s'') : Reaches s rest' s'' :=
  ⟨h'.words, h'.depth.trans h.depth, h'.maxDepth.trans h.maxDepth, h'.diagnostics.trans h.diagnostics⟩

lemma Reaches.fresh (h : Reaches s rest s') : Reaches s rest { s' with nextId := s'.nextId + 1 } :=
  ⟨h.words, h.depth, h.maxDepth, h.diagnostics⟩

lemma Reaches.leave (h : Reaches s.enter rest s') : Reaches s rest s'.leave :=
  ⟨h.words, by simp [State.leave, h.depth, State.enter], h.maxDepth, h.diagnostics⟩

lemma current_word (h : s.words = w :: rest) : s.current.word = w := (List.cons.inj h).1

lemma kind_of_words (h : s.words = .fixed k :: rest) : s.kind = k := kind_of_word (current_word h)

lemma reaches_advance (h : s.words = w :: rest) (hrest : rest ≠ []) (hw : w.isPlain) :
    Reaches s rest s.advance ∧ s.nextKind = s.advance.kind := by
  have hkind : s.kind ≠ .eof := by
    intro hkind
    rw [← current_word h, word_of_kind hkind rfl] at hw
    cases hw
  match hahead : s.ahead with
  | [] => exact absurd (by simpa [State.words, hahead] using (List.cons.inj h).2.symm) hrest
  | t :: more =>
    rw [advance_eq hkind hahead]
    refine ⟨⟨by simpa [State.words, hahead] using (List.cons.inj h).2, rfl, rfl, rfl⟩, ?_⟩
    rw [State.nextKind, hahead]
    rfl

/-! ## What may follow -/

/-- Whether an operand of which the operators have at least the power `least` ends before `k`. -/
structure Closes (least : Nat) (k : TokenKind) : Prop where
  cast : k ≠ .keyword .kwAs
  postfixed : k ∉ [.symbol .lparen, .symbol .lbracket, .symbol .bang, .symbol .dot]
  path : k ≠ .symbol .colonColon
  below : ∀ op, infixOp? k = some op → op.leftPower < least

lemma Closes.mono (h : Closes least k) (hle : least ≤ more) : Closes more k :=
  ⟨h.cast, h.postfixed, h.path, fun op hop => Nat.lt_of_lt_of_le (h.below op hop) hle⟩

lemma closes_operator (h : infixOp? (.symbol symbol) = some op)
    (hlt : op.leftPower < least) : Closes least (.symbol symbol) := by
  refine ⟨nofun, ?_, ?_, fun other hother => ?_⟩
  · intro hmem
    simp only [mem_cons, not_mem_nil, or_false] at hmem
    rcases hmem with hs | hs | hs | hs <;> (rw [hs] at h; cases h)
  · intro hs
    rw [hs] at h
    cases h
  · rw [h] at hother
    cases hother
    exact hlt

/-! ## Operands -/

/-- `p` reads `t` from `s` and leaves `rest`. -/
def Reads (p : Parse Expr) (t : OpTree) (s : State) (rest : List Word) : Prop :=
  ∃ e s', p s = (.ok e, s') ∧ e.opTree? = some t ∧ Reaches s rest s'

variable {g : Productions} {k : TokenKind} {ws : List Word}

lemma postfixKind?_run (base : Expr)
    (h : s.kind ∉ [.symbol .lparen, .symbol .lbracket, .symbol .bang, .symbol .dot]) :
    postfixKind? g base s = (.ok none, s) := by
  unfold postfixKind?
  rw [bind_run (kind_run s)]
  cases hkind : s.kind with
  | symbol symbol => cases symbol <;> first | rfl | simp [hkind] at h
  | _ => rfl

lemma reads_postfixExpr (h : Reads (primary g) t s (.fixed k :: ws)) (hk : Closes least k) :
    Reads (postfixExpr g) t s (.fixed k :: ws) := by
  obtain ⟨e, s', hrun, htree, hreach⟩ := h
  refine ⟨e, s', ?_, htree, hreach⟩
  unfold postfixExpr
  rw [bind_run (here_run s), bind_run hrun]
  refine repeatFrom_done ?_
  unfold postfixRound
  rw [bind_run (postfixKind?_run e (by rw [kind_of_words hreach.words]; exact hk.postfixed))]
  rfl

lemma reads_unaryExpr (h : Reads (primary g) t s (.fixed k :: ws)) (hk : Closes least k)
    (hunary : unaryOp? s.kind s.nextKind = none) : Reads (unaryExpr g) t s (.fixed k :: ws) := by
  obtain ⟨e, s', hrun, hrest⟩ := reads_postfixExpr h hk
  refine ⟨e, s', ?_, hrest⟩
  unfold unaryExpr
  rw [bind_run (here_run s), bind_run (kind_run s), bind_run (nextKind_run s), hunary]
  exact hrun

lemma reads_primary {kind : ExprKind} (hrun : primaryKind g s = (.ok kind, s'))
    (htree : kind.opTree? = some t) (hreach : Reaches s rest s') : Reads (primary g) t s rest := by
  have hprimary : primary g s = (.ok ⟨⟨s'.nextId⟩, kind, s.current.span.through s'.lastSpan⟩,
      { s' with nextId := s'.nextId + 1 }) := by
    unfold primary
    rw [bind_run (here_run s), bind_run hrun]
    rfl
  exact ⟨_, _, hprimary, by rw [opTree?_mk, htree], hreach.fresh⟩

lemma pathRound_done {segments : Array PathSegment} (h : s.kind ≠ .symbol .colonColon) :
    pathRound g segments s = (.ok (.inr segments.toList), s) := by
  unfold pathRound
  rw [bind_run (isAt_run _ s), if_pos (by simp [h]), pure_run]

lemma reads_name {text : String} (h : s.words = .name text :: .fixed k :: ws) (hname : isName text)
    (hk : Closes least k) : Reads (unaryExpr g) (.name text) s (.fixed k :: ws) := by
  obtain ⟨hkind, htext⟩ := name_of_word (current_word h)
  have hreach := (reaches_advance h (cons_ne_nil _ _) hname).1
  have hpath : s.advance.kind ≠ .symbol .colonColon := by
    rw [kind_of_words hreach.words]
    exact hk.path
  have hrun : primaryKind g s = (.ok (.path [⟨{ name := s.current.text, span := s.current.span }, []⟩]
      (s.current.span.through s.advance.lastSpan)), s.advance) := by
    unfold primaryKind
    rw [bind_run (kind_run s), show s.kind = .ident from hkind]
    show pathExpr g s = _
    unfold pathExpr
    rw [bind_run (here_run s), bind_run (ident_run hkind)]
    rw [bind_run (repeatFrom_done (pathRound_done hpath))]
    rfl
  refine reads_unaryExpr (reads_primary hrun ?_ hreach) hk ?_
  · rw [htext]
    rfl
  · rw [show s.kind = .ident from hkind]
    rfl

lemma literalExpr_run {value : Literal} (h : s.current.value = some value) :
    literalExpr s = (.ok (.literal value), s.advance) := by
  unfold literalExpr
  rw [bind_run bump_run, h]
  rfl

lemma reads_int {value : Nat} (h : s.words = .literal (some (.int value none)) :: .fixed k :: ws)
    (hvalue : value < pow2 64) (hk : Closes least k) : Reads (unaryExpr g) (.int value) s (.fixed k :: ws) := by
  obtain ⟨hkind, hliteral⟩ := literal_of_word (current_word h)
  have hreach := (reaches_advance h (cons_ne_nil _ _) (by simpa [Word.isPlain] using hvalue)).1
  have hkinds : s.kind = .intLiteral ∨ s.kind = .floatLiteral ∨ s.kind = .stringLiteral ∨ s.kind = .charLiteral := by
    simpa [literalKinds, State.kind] using hkind
  have hrun : primaryKind g s = (.ok (.literal (.int value none)), s.advance) := by
    unfold primaryKind
    rw [bind_run (kind_run s)]
    rcases hkinds with hkind | hkind | hkind | hkind <;> (rw [hkind]; exact literalExpr_run hliteral)
  refine reads_unaryExpr (reads_primary hrun rfl hreach) hk ?_
  rcases hkinds with hkind | hkind | hkind | hkind <;> (rw [hkind]; rfl)

lemma kind_ne_of_words (h : s.words = t.words ++ rest) (hk : startsTree (.fixed k) = false)
    (hfixed : isFixed k) : s.kind ≠ k := by
  obtain ⟨w, ws, hwords, hstart⟩ := t.words_cons
  rw [hwords, cons_append] at h
  intro hkind
  rw [← current_word h, word_of_kind hkind hfixed, hk] at hstart
  cases hstart

lemma reads_paren {inner : OpTree} (h : s.words = symbolWord .lparen :: (inner.words ++ symbolWord .rparen :: .fixed k :: ws))
    (hk : Closes least k) (hinner : Reads g.expr inner s.advance (symbolWord .rparen :: .fixed k :: ws)) : Reads
    (unaryExpr g) (.paren inner) s (.fixed k :: ws) := by
  have hkind : s.kind = .symbol .lparen := kind_of_words h
  have hopen := (reaches_advance h (by simp) rfl).1
  obtain ⟨e, s₁, hexpr, htree, hreach⟩ := hinner
  have hclose := (reaches_advance hreach.words (cons_ne_nil _ _) rfl).1
  have hlast : s₁.kind = .symbol .rparen := kind_of_words hreach.words
  have hcomma : s₁.kind ≠ .symbol .comma := by rw [hlast]; decide
  have hfirst : s.advance.kind ≠ .symbol .rparen := kind_ne_of_words hopen.words rfl rfl
  have hrun : primaryKind g s = (.ok (.paren e), s₁.advance) := by
    unfold primaryKind
    rw [bind_run (kind_run s), hkind]
    show parenthesised g s = _
    unfold parenthesised
    rw [bind_run bump_run, bind_run (eat_run_of_ne hfirst)]
    show (g.expr >>= _) s.advance = _
    rw [bind_run hexpr, bind_run (eat_run_of_ne hcomma)]
    show (expectText (.symbol .rparen) >>= _) s₁ = _
    rw [bind_run (expectText_run hlast), pure_run]
  refine reads_unaryExpr (reads_primary hrun ?_ ((hopen.trans hreach).trans hclose)) hk ?_
  · simp [ExprKind.opTree?, htree]
  · rw [hkind]
    rfl

lemma unaryExpr_run {op : UnaryOp} {e : Expr} (hop : unaryOp? s.kind s.nextKind = some op)
    (h : g.exprAbove unaryPower (if op == .mutView then s.advance.advance else s.advance) = (.ok e, s')) :
    unaryExpr g s = (.ok ⟨⟨s'.nextId⟩, .unary op e, s.current.span.through s'.lastSpan⟩,
      { s' with nextId := s'.nextId + 1 }) := by
  unfold unaryExpr
  rw [bind_run (here_run s), bind_run (kind_run s), bind_run (nextKind_run s), hop]
  show (bump >>= _) s = _
  split at h
  all_goals rename_i hmut
  · rw [if_pos hmut, bind_run (bump_run)]
    exact bind_run h
  · rw [if_neg hmut]
    exact bind_run h

lemma unaryOp?_words {op : UnaryOp} (h : s.words = prefixWords op ++ (operand.words ++ .fixed k :: ws)) :
    unaryOp? s.kind s.nextKind = some op ∧ Reaches s (operand.words ++ .fixed k :: ws)
    (if op == .mutView then s.advance.advance else s.advance) := by
  have hrest : operand.words ++ .fixed k :: ws ≠ [] := by simp
  cases op with
  | mutView =>
    obtain ⟨hfirst, hnext⟩ := reaches_advance h (cons_ne_nil _ _) rfl
    have hsecond := (reaches_advance hfirst.words hrest rfl).1
    refine ⟨?_, hfirst.trans hsecond⟩
    rw [kind_of_words h, hnext, kind_of_words hfirst.words]
    rfl
  | view =>
    obtain ⟨hfirst, hnext⟩ := reaches_advance h hrest rfl
    have hmut : s.advance.kind ≠ .keyword .kwMut := kind_ne_of_words hfirst.words rfl rfl
    refine ⟨?_, hfirst⟩
    rw [kind_of_words h, hnext]
    simp [unaryOp?, hmut]
  | _ =>
    refine ⟨?_, (reaches_advance h hrest rfl).1⟩
    rw [kind_of_words h]
    rfl

lemma reads_prefixed {op : UnaryOp} (h : s.words = prefixWords op ++ (operand.words ++ .fixed k :: ws))
    (hoperand : ∀ s₁, Reaches s (operand.words ++ .fixed k :: ws) s₁ → Reads (g.exprAbove unaryPower) operand s₁ (.fixed k :: ws)) :
    Reads (unaryExpr g) (.prefixed op operand) s (.fixed k :: ws) := by
  obtain ⟨hop, hreach⟩ := unaryOp?_words h
  obtain ⟨e, s₁, hrun, htree, hrest⟩ := hoperand _ hreach
  refine ⟨_, _, unaryExpr_run hop hrun, ?_, (hreach.trans hrest).fresh⟩
  simp [Expr.opTree?, ExprKind.opTree?, htree]

/-! ## Rounds of the operator loop -/

lemma operatorRound_done {start : Span} {lhs : Expr} {unchained : Option Nat}
    (hk : Closes least s.kind) : operatorRound g least start (lhs, unchained) s = (.ok (.inr lhs), s) := by
  unfold operatorRound
  dsimp only
  rw [bind_run (kind_run s), if_neg (by simpa using hk.cast)]
  cases hop : infixOp? s.kind with
  | none => rfl
  | some op =>
    dsimp only
    rw [if_pos (hk.below op hop), pure_run]

lemma kind_ne_as (hop : infixOp? s.kind = some op) : s.kind ≠ .keyword .kwAs := by
  intro hkind
  rw [hkind] at hop
  cases hop

lemma operatorRound_takes {rhs : Expr} {unchained : Option Nat} (start : Span) (lhs : Expr)
    (hop : infixOp? s.kind = some op) (hle : least ≤ op.leftPower)
    (hchain : op.assoc = .none → unchained ≠ some op.level)
    (hrhs : g.exprAbove op.rightPower s.advance = (.ok rhs, s')) :
    operatorRound g least start (lhs, unchained) s = (.ok (.inl (⟨⟨s'.nextId⟩, op.kind.build lhs rhs,
    start.through s'.lastSpan⟩, if op.assoc == .none then some op.level else none)),
    { s' with nextId := s'.nextId + 1 }) := by
  unfold operatorRound
  dsimp only
  rw [bind_run (kind_run s), if_neg (by simpa using kind_ne_as hop), hop]
  dsimp only
  rw [if_neg (by omega), if_neg (by simpa using hchain), bind_run bump_run, bind_run hrhs]
  rfl

/-! ## Trees -/

namespace OpTree

def spine : OpTree → Nat
  | .infixed _ lhs _ => lhs.spine + 1
  | _ => 0

def behind : OpTree → List Word
  | .infixed s lhs rhs => lhs.behind ++ symbolWord s :: rhs.words
  | _ => []

/-- The least power of operators that the rightmost operand would take. -/
def edge : OpTree → Nat
  | .infixed s .. => ((infixOp? (.symbol s)).map InfixOp.rightPower).getD 0
  | _ => unaryPower

/-- The level that must not be chained behind the tree. -/
def unchained : OpTree → Option Nat
  | .infixed s .. => (infixOp? (.symbol s)).bind fun op => if op.assoc == .none then some op.level else none
  | _ => none

lemma spine_le_behind (t : OpTree) : t.spine ≤ t.behind.length := by
  induction t with
  | infixed s lhs rhs ihl ihr =>
    simp only [spine, behind, length_append, length_cons]
    omega
  | _ => exact Nat.zero_le _

lemma behind_subset (t : OpTree) : ∀ w ∈ t.behind, w ∈ t.words := by
  induction t with
  | infixed s lhs rhs ihl ihr =>
    intro w hw
    rcases mem_append.1 hw with hw | hw
    · exact mem_append_left _ (ihl w hw)
    · exact mem_append_right _ hw
  | _ => exact nofun

lemma level_le_edge (h : t.wellLevelled) : min (10 * t.level) unaryPower ≤ t.edge := by
  cases t with
  | infixed s lhs rhs =>
    obtain ⟨op, hop, -⟩ := wellLevelled_infixed.1 h
    have := leftPower_le_rightPower op
    rw [level_infixed hop]
    simp only [edge, hop, Option.map_some, Option.getD_some]
    unfold InfixOp.leftPower at this
    omega
  | _ => exact Nat.min_le_right _ _

end OpTree

variable {lhs : OpTree}

/-- How the operator loop reads `t` from `s`: the leftmost operand first, then one round for each
infix node on the left edge. -/
def Unrolls (g : Productions) (least : Nat) (t : OpTree) (s : State) (rest : List Word) : Prop :=
  ∃ e₀ s₀, unaryExpr g s = (.ok e₀, s₀) ∧ Reaches s (t.behind ++ rest) s₀ ∧
    ∀ start, ∃ e s', e.opTree? = some t ∧ Reaches s rest s' ∧
      ∀ fuel, iterate (operatorRound g least start) (fuel + t.spine) (e₀, none) s₀
        = iterate (operatorRound g least start) fuel (e, t.unchained) s'

lemma Unrolls.of_operand (h : Reads (unaryExpr g) t s rest) (hbehind : t.behind = [])
    (hspine : t.spine = 0) (hunchained : t.unchained = none) : Unrolls g least t s rest := by
  obtain ⟨e, s', hrun, htree, hreach⟩ := h
  refine ⟨e, s', hrun, by rwa [hbehind], fun start => ⟨e, s', htree, hreach, fun fuel => ?_⟩⟩
  rw [hspine, hunchained, Nat.add_zero]

/-- The words behind the leftmost operand are enough fuel for its rounds. -/
lemma rounds_fuel (hwritable : t.isWritable) (h : Reaches s (t.behind ++ rest) s') :
    s'.weight + 1 = (s'.weight - t.spine + 1) + t.spine := by
  have hplain : ∀ w ∈ t.behind, w ≠ .fixed .eof := by
    rintro w hw rfl
    cases words_isPlain hwritable _ (t.behind_subset _ hw)
  have := Nat.le_trans t.spine_le_behind (length_le_weight h.words hplain)
  omega

lemma Unrolls.reads (h : Unrolls g least t s (.fixed k :: ws)) (hwritable : t.isWritable)
    (hk : Closes least k) : Reads (exprAbove g least) t s (.fixed k :: ws) := by
  obtain ⟨e₀, s₀, hrun, hreach₀, hloop⟩ := h
  obtain ⟨e, s', htree, hreach, hrounds⟩ := hloop s.current.span
  refine ⟨e, s', ?_, htree, hreach⟩
  unfold exprAbove
  rw [bind_run (here_run s), bind_run hrun, repeatFrom_run, rounds_fuel hwritable hreach₀, hrounds]
  exact iterate_done (operatorRound_done (by rw [kind_of_words hreach.words]; exact hk))

lemma Reads.nested {m : Nat} (hdepth : s.depth + 1 ≤ s.maxDepth)
    (h : Reads (exprAbove (productions m) least) t s.enter rest) :
    Reads ((productions (m + 1)).exprAbove least) t s rest := by
  obtain ⟨e, s', hrun, htree, hreach⟩ := h
  exact ⟨e, s'.leave, nested_run hdepth hrun, htree, hreach.leave⟩

/-- The loop reads `t` wherever its words stand, with enough fuel and depth, before a token that no
operator of `t` takes. -/
def Readable (t : OpTree) : Prop :=
  ∀ (m least : Nat) {s : State} {k : TokenKind} {ws : List Word}, s.words = t.words ++ .fixed k :: ws →
    t.words.length ≤ m + 1 → s.depth + t.words.length ≤ s.maxDepth + 1 → Closes t.edge k →
    least ≤ 10 * t.level → Unrolls (productions m) least t s (.fixed k :: ws)

lemma Readable.exprAbove (h : Readable t) {m : Nat} (hlevels : t.wellLevelled) (hwritable : t.isWritable)
    (hwords : s.words = t.words ++ .fixed k :: ws) (hfuel : t.words.length ≤ m)
    (hdepth : s.depth + t.words.length ≤ s.maxDepth) (hk : Closes least k) (hleast : least ≤ 10 * t.level)
    (hunary : least ≤ unaryPower) : Reads ((productions m).exprAbove least) t s (.fixed k :: ws) := by
  have hpos : 1 ≤ t.words.length := by
    obtain ⟨w, rest, hcons, -⟩ := t.words_cons
    rw [hcons, length_cons]
    omega
  obtain ⟨m, rfl⟩ : ∃ n, m = n + 1 := ⟨m - 1, by omega⟩
  have hedge : least ≤ t.edge := Nat.le_trans (Nat.le_min.2 ⟨hleast, hunary⟩) (level_le_edge hlevels)
  refine Reads.nested (by omega) (Unrolls.reads (h m least hwords hfuel ?_ (hk.mono hedge) hleast) hwritable hk)
  show s.depth + 1 + t.words.length ≤ s.maxDepth + 1
  omega

lemma closes_rparen : Closes least (.symbol .rparen) := ⟨by decide, by decide, by decide, nofun⟩

lemma readable_paren {inner : OpTree} (ih : Readable inner) (hlevels : inner.wellLevelled)
    (hwritable : inner.isWritable) : Readable (.paren inner) := by
  intro m least s k ws hwords hfuel hdepth hk _
  have hwords' : s.words = symbolWord .lparen :: (inner.words ++ symbolWord .rparen :: .fixed k :: ws) := by
    rw [hwords, words]
    simp
  simp only [words, length_cons, length_append, length_nil] at hfuel hdepth
  have hopen := (reaches_advance hwords' (by simp) rfl).1
  refine .of_operand (reads_paren hwords' hk ?_) rfl rfl rfl
  refine ih.exprAbove hlevels hwritable hopen.words (by omega) ?_ closes_rparen (Nat.zero_le _) (Nat.zero_le _)
  rw [hopen.depth, hopen.maxDepth]
  omega

lemma readable_prefixed {op : UnaryOp} (ih : Readable operand) (hlevel : 14 ≤ operand.level)
    (hlevels : operand.wellLevelled) (hwritable : operand.isWritable) : Readable (.prefixed op operand) := by
  intro m least s k ws hwords hfuel hdepth hk _
  have hwords' : s.words = prefixWords op ++ (operand.words ++ .fixed k :: ws) := by
    rw [hwords, words, append_assoc]
  have hop : 1 ≤ (prefixWords op).length := by cases op <;> decide
  simp only [words, length_append] at hfuel hdepth
  refine .of_operand (reads_prefixed hwords' fun s₁ hreach => ?_) rfl rfl rfl
  refine ih.exprAbove hlevels hwritable hreach.words (by omega) ?_ hk ?_ (Nat.le_refl _)
  · rw [hreach.depth, hreach.maxDepth]
    omega
  · unfold unaryPower
    omega

lemma takesLeft_iff : op.takesLeft level ↔ op.level < level ∨ op.assoc = .left ∧ op.level = level := by
  simp [InfixOp.takesLeft]

lemma takesRight_iff : op.takesRight level ↔ op.level < level ∨ op.assoc = .right ∧ op.level = level := by
  simp [InfixOp.takesRight]

lemma rightPower_cases (op : InfixOp) :
    op.assoc = .right ∧ op.rightPower = 10 * op.level ∨ op.assoc ≠ .right ∧ op.rightPower = 10 * op.level + 1 := by
  unfold InfixOp.rightPower InfixOp.leftPower
  cases op.assoc <;> simp [Nat.mul_comm]

lemma leftPower_lt_edge (hop : infixOp? (.symbol symbol) = some op) (h : op.takesLeft lhs.level)
    (hlhs : lhs.wellLevelled) : op.leftPower < lhs.edge := by
  cases lhs with
  | infixed inner l r =>
    obtain ⟨op', hop', -⟩ := wellLevelled_infixed.1 hlhs
    rw [level_infixed hop', takesLeft_iff] at h
    simp only [edge, hop', Option.map_some, Option.getD_some]
    have hassoc := (infixOp?_listed hop).assoc
    have hassoc' := (infixOp?_listed hop').assoc
    unfold InfixOp.leftPower
    rcases h with h | ⟨hleft, h⟩
    · rcases rightPower_cases op' with ⟨-, hpower⟩ | ⟨-, hpower⟩ <;> omega
    · -- operators of one level associate alike, so the inner one leaves the level to the left
      rw [hassoc, h, ← hassoc'] at hleft
      rcases rightPower_cases op' with ⟨hright, -⟩ | ⟨-, hpower⟩
      · rw [hleft] at hright
        cases hright
      · omega
  | _ => exact Nat.lt_of_le_of_lt (leftPower_le hop) (show 120 < unaryPower by decide)

lemma rightPower_le_of_takesRight (h : op.takesRight level) : op.rightPower ≤ 10 * level := by
  rcases takesRight_iff.1 h with h | ⟨hassoc, rfl⟩
  · rcases rightPower_cases op with ⟨-, hpower⟩ | ⟨-, hpower⟩ <;> omega
  · rcases rightPower_cases op with ⟨-, hpower⟩ | ⟨hne, -⟩
    · omega
    · exact absurd hassoc hne

lemma rightPower_le_unaryPower (hop : infixOp? (.symbol symbol) = some op) : op.rightPower ≤ unaryPower := by
  have := (infixOp?_listed hop).le_twelve
  unfold unaryPower
  rcases rightPower_cases op with ⟨-, hpower⟩ | ⟨-, hpower⟩ <;> omega

lemma unchained_ne_of_takesLeft (h : op.takesLeft lhs.level)
    (hassoc : op.assoc = .none) : lhs.unchained ≠ some op.level := by
  have hlt : op.level < lhs.level := by
    rcases takesLeft_iff.1 h with h | ⟨hleft, -⟩
    · exact h
    · rw [hassoc] at hleft
      cases hleft
  cases lhs with
  | infixed inner l r =>
    simp only [OpTree.level, OpTree.unchained] at hlt ⊢
    cases hop : infixOp? (.symbol inner) with
    | none => simp
    | some op' =>
      simp only [hop, Option.map_some, Option.getD_some, Option.bind_some] at hlt ⊢
      split
      · simp only [ne_eq, Option.some.injEq]
        omega
      · simp
  | _ => simp [OpTree.unchained]

lemma readable_infixed {rhs : OpTree} (hop : infixOp? (.symbol symbol) = some op) (hleft : op.takesLeft lhs.level)
    (hright : op.takesRight rhs.level) (ihl : Readable lhs) (ihr : Readable rhs) (hlhs : lhs.wellLevelled)
    (hrhs : rhs.wellLevelled) (hwritable : rhs.isWritable) : Readable (.infixed symbol lhs rhs) := by
  intro m least s k ws hwords hfuel hdepth hk hleast
  have hwords' : s.words = lhs.words ++ .fixed (.symbol symbol) :: (rhs.words ++ .fixed k :: ws) := by
    rw [hwords, words, symbolWord]
    simp
  simp only [words, length_append, length_cons] at hfuel hdepth
  simp only [edge, hop, Option.map_some, Option.getD_some] at hk
  rw [level_infixed hop] at hleast
  have hpower : least ≤ op.leftPower := by unfold InfixOp.leftPower; omega
  obtain ⟨e₀, s₀, hrun, hreach₀, hloop⟩ := ihl m least hwords' (by omega) (by omega)
    (closes_operator hop (leftPower_lt_edge hop hleft hlhs)) (by rcases takesLeft_iff.1 hleft with h | h <;> omega)
  refine ⟨e₀, s₀, hrun, ?_, fun start => ?_⟩
  · simpa [behind, symbolWord] using hreach₀
  obtain ⟨e, s₁, htree, hreach, hrounds⟩ := hloop start
  have hnext := (reaches_advance hreach.words (by simp) rfl).1
  have hkind : s₁.kind = .symbol symbol := kind_of_words hreach.words
  -- the right operand is read one level deeper, with the power that the operator leaves it
  obtain ⟨right, s₂, hoperand, hrtree, hrest⟩ := ihr.exprAbove (m := m) hrhs hwritable hnext.words (by omega)
    (by rw [hnext.depth, hnext.maxDepth, hreach.depth, hreach.maxDepth]; omega) hk
    (rightPower_le_of_takesRight hright) (rightPower_le_unaryPower hop)
  have hround := operatorRound_takes start e (by rw [hkind]; exact hop) hpower
    (unchained_ne_of_takesLeft hleft) hoperand
  refine ⟨⟨⟨s₂.nextId⟩, op.kind.build e right, start.through s₂.lastSpan⟩, _, ?_,
    ((hreach.trans hnext).trans hrest).fresh, fun fuel => ?_⟩
  · rw [opTree?_mk, opTree?_build, htree, hrtree, InfixKind.tree?, (infixOp?_listed hop).symbol]
    rfl
  · rw [spine, show fuel + (lhs.spine + 1) = (fuel + 1) + lhs.spine by omega, hrounds,
      iterate_succ hround, unchained, hop, Option.bind_some]

lemma readable_tree (hlevels : t.wellLevelled) (hwritable : t.isWritable) : Readable t := by
  induction t with
  | name text =>
    intro m least s k ws hwords _ _ hk _
    exact .of_operand (reads_name hwords hwritable hk) rfl rfl rfl
  | int value =>
    have hvalue : value < pow2 64 := by simpa [isWritable] using hwritable
    intro m least s k ws hwords _ _ hk _
    exact .of_operand (reads_int hwords hvalue hk) rfl rfl rfl
  | paren inner ih => exact readable_paren (ih hlevels hwritable) hlevels hwritable
  | prefixed op operand ih =>
    simp only [wellLevelled, Bool.and_eq_true, decide_eq_true_eq] at hlevels
    exact readable_prefixed (ih hlevels.2 hwritable) hlevels.1 hlevels.2 hwritable
  | infixed symbol lhs rhs ihl ihr =>
    obtain ⟨op, hop, hleft, hright, hlhs, hrhs⟩ := wellLevelled_infixed.1 hlevels
    simp only [isWritable, Bool.and_eq_true] at hwritable
    exact readable_infixed hop hleft hright (ihl hlhs hwritable.1) (ihr hrhs hwritable.2) hlhs hrhs hwritable.2

/-! ## Whole texts -/

lemma closes_eof : Closes least .eof := ⟨by decide, by decide, by decide, nofun⟩

lemma wholeExpr_run (h : Reads g.expr t s [.fixed .eof]) :
    ∃ e s', wholeExpr g s = (.ok e, s') ∧ e.opTree? = some t ∧ s'.diagnostics = s.diagnostics := by
  obtain ⟨e, s', hrun, htree, hreach⟩ := h
  refine ⟨e, s', ?_, htree, hreach.diagnostics⟩
  unfold wholeExpr
  rw [bind_run hrun, bind_run (isAt_run _ s'), kind_of_words hreach.words]
  rfl

lemma length_le_recursionBound {words : List Word} (h : s.words = words ++ rest)
    (hplain : ∀ w ∈ words, w.isPlain) : words.length ≤ recursionBound s := by
  have := length_le_weight h fun w hw heof => by
    have := hplain w hw
    rw [heof] at this
    cases this
  unfold recursionBound
  omega

/-- The text of a well levelled tree is parsed to that tree, without a report. -/
lemma parseExpr_spaced {maxDepth : Nat} (hlevels : t.wellLevelled)
    (hwritable : t.isWritable) (hdepth : t.words.length ≤ maxDepth) :
    ∃ e, parseExpr file (spaced t.words) maxDepth = (some e, []) ∧ e.opTree? = some t := by
  have hplain := words_isPlain hwritable
  obtain ⟨hread, hdiags⟩ := lex_spaced file hplain
  obtain ⟨hwords, hdepth₀, hmax, hdiags₀⟩ := startState_lex file (spaced t.words) maxDepth
  rw [hread] at hwords
  obtain ⟨e, s', hrun, htree, hdiags'⟩ := wholeExpr_run <|
    (readable_tree hlevels hwritable).exprAbove hlevels hwritable hwords
      (length_le_recursionBound hwords hplain) (by rw [hdepth₀, hmax]; omega) closes_eof
      (Nat.zero_le _) (Nat.zero_le _)
  refine ⟨e, ?_, htree⟩
  rw [parseExpr_eq hrun, hdiags, hdiags', hdiags₀]
  rfl

/-! ## Chains -/

def chainReport (op : InfixOp) (span : Span) : Diagnostic :=
  .error .grammar "E0103" span s!"{chainName op.level} operators cannot be chained; use parentheses"

lemma operatorRound_chained {start : Span} {lhs : Expr}
    (hop : infixOp? s.kind = some op) (hle : least ≤ op.leftPower) (hassoc : op.assoc = .none) :
    operatorRound g least start (lhs, some op.level) s
      = (.error .refused, { s with diagnostics := s.diagnostics.push (chainReport op s.current.span) }) := by
  unfold operatorRound
  dsimp only
  rw [bind_run (kind_run s), if_neg (by simpa using kind_ne_as hop), hop]
  dsimp only
  rw [if_neg (by omega), if_pos (by simp [hassoc]), bind_run (here_run s)]
  rfl

lemma Unrolls.refuses (h : Unrolls g least t s (.fixed (.symbol symbol) :: ws)) (hwritable : t.isWritable)
    (hop : infixOp? (.symbol symbol) = some op) (hle : least ≤ op.leftPower) (hassoc : op.assoc = .none)
    (hchain : t.unchained = some op.level) : ∃ s' span, exprAbove g least s = (.error .refused, s') ∧
    s'.diagnostics = s.diagnostics.push (chainReport op span) := by
  obtain ⟨e₀, s₀, hrun, hreach₀, hloop⟩ := h
  obtain ⟨e, s₁, -, hreach, hrounds⟩ := hloop s.current.span
  have hkind : infixOp? s₁.kind = some op := by rw [kind_of_words hreach.words]; exact hop
  refine ⟨{ s₁ with diagnostics := s₁.diagnostics.push (chainReport op s₁.current.span) }, s₁.current.span,
    ?_, by rw [hreach.diagnostics]⟩
  unfold exprAbove
  rw [bind_run (here_run s), bind_run hrun, repeatFrom_run, rounds_fuel hwritable hreach₀, hrounds, hchain, iterate]
  exact bind_error (operatorRound_chained hkind hle hassoc)

lemma assoc_of_level (hop : infixOp? (.symbol symbol) = some op) (h : op.level ∈ [2, 5, 6]) : op.assoc = .none := by
  rw [(infixOp?_listed hop).assoc]
  simp only [mem_cons, not_mem_nil, or_false] at h
  rcases h with h | h | h <;> rw [h] <;> rfl

lemma unchained_of_level (h : t.level ∈ [2, 5, 6]) : t.unchained = some t.level ∧ t.edge = 10 * t.level + 1 := by
  cases t with
  | infixed symbol lhs rhs =>
    cases hop : infixOp? (.symbol symbol) with
    | none => simp [level, hop] at h
    | some op =>
      rw [level_infixed hop] at h ⊢
      have hassoc := assoc_of_level hop h
      simp [unchained, edge, hop, hassoc, InfixOp.rightPower, InfixOp.leftPower, Nat.mul_comm]
  | _ => simp [level] at h

/-- Operators of the levels 2, 5 and 6 cannot be chained where an expression is read that may have them. -/
lemma exprAbove_chain (hop : infixOp? (.symbol symbol) = some op) (hlevel : op.level ∈ [2, 5, 6])
    (hsame : t.level = op.level) (hlevels : t.wellLevelled) (hwritable : t.isWritable)
    (hle : least ≤ op.leftPower) (hwords : s.words = t.words ++ symbolWord symbol :: ws) (hfuel : t.words.length ≤ n + 1)
    (hdepth : s.depth + t.words.length ≤ s.maxDepth) : ∃ s' span,
    (productions (n + 1)).exprAbove least s = (.error .refused, s') ∧
    s'.diagnostics = s.diagnostics.push (chainReport op span) := by
  obtain ⟨hunchained, hedge⟩ := unchained_of_level (by rw [hsame]; exact hlevel)
  have hpos : 1 ≤ t.words.length := by
    obtain ⟨w, rest, hcons, -⟩ := t.words_cons
    rw [hcons, length_cons]
    omega
  have hcloses : Closes t.edge (.symbol symbol) :=
    closes_operator hop (by rw [hedge, hsame]; unfold InfixOp.leftPower; omega)
  have hunrolls : Unrolls (productions n) least t s.enter (.fixed (.symbol symbol) :: ws) :=
    readable_tree hlevels hwritable n least hwords hfuel (by simp only [State.enter]; omega) hcloses
      (by unfold InfixOp.leftPower at hle; omega)
  obtain ⟨s', span, hrun, hdiags⟩ := hunrolls.refuses hwritable hop hle (assoc_of_level hop hlevel)
    (by rw [hunchained, hsame])
  exact ⟨s'.leave, span, nested_run (by omega) hrun, hdiags⟩

/-- A text that begins with a chain is refused, whatever comes behind it. -/
lemma parseExpr_chain {more : List Word} {maxDepth : Nat} (hop : infixOp? (.symbol symbol) = some op)
    (hlevel : op.level ∈ [2, 5, 6]) (hsame : t.level = op.level) (hlevels : t.wellLevelled) (hwritable : t.isWritable)
    (hmore : ∀ w ∈ more, w.isPlain) (hdepth : t.words.length ≤ maxDepth) : ∃ span,
    parseExpr file (spaced (t.words ++ symbolWord symbol :: more)) maxDepth = (none, [chainReport op span]) := by
  have hplain : ∀ w ∈ t.words ++ symbolWord symbol :: more, w.isPlain := by
    intro w hw
    rcases mem_append.1 hw with hw | hw
    · exact words_isPlain hwritable w hw
    · rcases mem_cons.1 hw with rfl | hw
      · rfl
      · exact hmore w hw
  obtain ⟨hread, hdiags⟩ := lex_spaced file hplain
  obtain ⟨hwords, hdepth₀, hmax, hdiags₀⟩ :=
    startState_lex file (spaced (t.words ++ symbolWord symbol :: more)) maxDepth
  rw [hread] at hwords
  have hbound := length_le_recursionBound hwords hplain
  rw [length_append] at hbound
  rw [append_assoc, cons_append] at hwords
  obtain ⟨s', span, hrun, hdiags'⟩ := exprAbove_chain hop hlevel hsame hlevels hwritable (Nat.zero_le _) hwords
    (Nat.le_trans (Nat.le_add_right _ _) hbound)
    (by rw [hdepth₀, hmax]; omega)
  refine ⟨span, ?_⟩
  rw [parseExpr_eq (bind_error hrun), hdiags, hdiags', hdiags₀]
  rfl

end Kite.Grammar
