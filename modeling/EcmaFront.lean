import EcmaFront.Program
import EcmaFront.Scope.IndexedEnvironment
import EcmaFront.Proofs.Nonterminal
import EcmaFront.Proofs.Reading
import EcmaFront.Proofs.ReadFunction
import EcmaFront.Proofs.ReadOperand
import EcmaFront.Proofs.ReadOperation
import EcmaFront.Proofs.ReadStatement
import EcmaFront.Proofs.Agreement
import EcmaFront.Tree.Occurrence
import EcmaFront.Proofs.AgreeFunction
import EcmaFront.Proofs.AgreeOperand
import EcmaFront.Proofs.AgreeOperation
import EcmaFront.Proofs.AgreeStatement
import EcmaFront.Proofs.CheckedProgram
import EcmaFront.Proofs.Frames
import EcmaFront.Proofs.Content
import EcmaFront.Proofs.Walk
import EcmaFront.Proofs.ScopeRun
import EcmaFront.Proofs.ScopeEffect
import EcmaFront.Proofs.Redeclaration
import EcmaFront.Proofs.Capture
import EcmaFront.Proofs.Reach
import EcmaFront.Proofs.Outline
import EcmaFront.Proofs.Passage
import EcmaFront.Proofs.Declarations
import EcmaFront.Proofs.DeclaredNames
import EcmaFront.Proofs.StrictCode
import EcmaFront.Tree.Hom
import EcmaFront.Tree.Prologue
import EcmaFront.Proofs.Scanning
import EcmaFront.Proofs.Sight
import EcmaFront.Proofs.Consumption
import EcmaFront.Proofs.Directive
import EcmaFront.Proofs.StrictFlags
import EcmaFront.Proofs.PrologueRestart
import EcmaFront.Proofs.Layout
import EcmaFront.Proofs.Trail
import EcmaFront.Proofs.Stretch
import EcmaFront.Proofs.Phrase
import EcmaFront.Proofs.Composite
import EcmaFront.Proofs.PhraseStep
import EcmaFront.Proofs.Laying
import EcmaFront.Proofs.SourceLayout
import EcmaFront.Proofs.AllowedIn
import EcmaFront.Tree.Conversion
import EcmaFront.Tree.WellFormed
import EcmaFront.Tree.Jump
import EcmaFront.Proofs.Stance
import EcmaFront.Proofs.Footing
import EcmaFront.Proofs.LoopAhead
import EcmaFront.Proofs.Inherit
import EcmaFront.Proofs.Placement
import EcmaFront.Proofs.Soundness
import EcmaFront.Proofs.WellFormed
import EcmaFront.Proofs.Fault
import EcmaFront.Proofs.Alike
import EcmaFront.Proofs.AlikeStep
import EcmaFront.Proofs.Asking
import EcmaFront.Proofs.AlikeFunction
import EcmaFront.Proofs.AlikeOperand
import EcmaFront.Proofs.AlikePattern
import EcmaFront.Proofs.AlikeOperation
import EcmaFront.Proofs.AlikeStatement
import EcmaFront.Proofs.Watched
import EcmaFront.Proofs.Termination
import EcmaFront.Proofs.JumpTargets
import EcmaFront.Proofs.TokenStream
import EcmaFront.Proofs.Mirror
import EcmaFront.Proofs.Confinement
import EcmaFront.Proofs.ByteSequence
import EcmaFront.Proofs.Spelling
import EcmaFront.Proofs.Truncation
import EcmaFront.Proofs.Cutting
import EcmaFront.Proofs.LineTracking
import EcmaFront.Proofs.Modification
import EcmaFront.Proofs.LoneProperty
import EcmaFront.Proofs.MemberProductions
import EcmaFront.Proofs.OperatorTree
import EcmaFront.Proofs.Gap
import EcmaFront.Proofs.LineRule
import EcmaFront.Proofs.Course
import EcmaFront.Proofs.LineKeeping
import EcmaFront.Proofs.NameSpelling
import EcmaFront.Proofs.NumericLiteral
import EcmaFront.Proofs.Progress
import EcmaFront.Proofs.RegexpLiteral
import EcmaFront.Proofs.ShownText
import EcmaFront.Proofs.Decoding
import EcmaFront.Proofs.StringSpelling
import EcmaFront.Proofs.Blame
import EcmaFront.Proofs.BlameOperand
import EcmaFront.Proofs.BlameStatement
import EcmaFront.Proofs.TokenPlaces
import EcmaFront.Proofs.ErrorPlaces
import EcmaFront.Proofs.Lookahead
import EcmaFront.Proofs.Balance
import EcmaFront.Proofs.BalanceOperand
import EcmaFront.Proofs.BalanceStatement
import EcmaFront.Proofs.ParserBalance
import EcmaFront.Proofs.LookingAhead
import EcmaFront.Proofs.Tracing
import EcmaFront.Proofs.EnvironmentRun
import EcmaFront.Proofs.EnvironmentIndex
