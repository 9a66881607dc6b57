import Kite.Tree.Outline
import Kite.Typed.Outline
import Kite.Value.Outline
import Kite.Proofs.Eval.Raising
import Kite.Proofs.Eval.Operators
import Kite.Proofs.Eval.Euclid
import Kite.Proofs.Eval.Jumps
import Kite.Proofs.Token.Integer
import Kite.Proofs.Typing.Preservation
import Kite.Proofs.Emission.Hoisting
import Kite.Proofs.Emission.Locals
import Kite.Proofs.Emission.Parens
import Kite.Proofs.Emission.Strings
import Kite.Proofs.Grammar.Levels
import Kite.Proofs.Grammar.Isolation
import Kite.Proofs.Instance.Coherence
import Kite.Proofs.Check.Exhaustive
import Kite.Proofs.Check.Writing
import Kite.Proofs.Emission.Finite
import Kite.Proofs.Types.Coercion
import Kite.Proofs.Types.Substitution
import Kite.Proofs.Session.Binding
import Kite.Proofs.Check.Replay
import Kite.Proofs.Compilation.ImportOrder
import Kite.Proofs.Compilation.Load
import Kite.Proofs.Compilation.Entry
