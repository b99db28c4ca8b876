import EcmaFront.Proofs.Nonterminal

/-!
The grammar as a relation: how a nonterminal is read from one state of a parse to another, and what
is made of it. Steps that go through no other nonterminal stand in the rules as they run. Where an
assignment pattern was tried in vain the reading goes on from the state that the trial left behind,
if that is allowed.
-/

set_option autoImplicit false

namespace EcmaFront

open Parse (Placed Waiting BinaryScan MemberChain FunctionHeader Ends Leading)

/-- The nonterminal `g` is read from `s` to `s'` and taken for `a`. -/
inductive Reading (B : NodeAlgebra) (mayGiveUp : Prop) (c : ParseContext) :
    (g : Nonterminal B) → ParseState → g.Result → ParseState → Prop where
  -- Statements
  | itemFunction {s s' a} (hk : s.kind = .kwFunction)
    (h : Reading B mayGiveUp c .functionDeclaration s a s') :
    Reading B mayGiveUp c .item s a s'
  | itemConst {s s' a} (hk : s.kind = .kwConst)
    (h : Reading B mayGiveUp c (.variableStatement .const) s a s') :
    Reading B mayGiveUp c .item s a s'
  | itemLet {s s₁ s' a} (hk : s.kind = .kwLet) (hl : Parse.atLetDeclaration c s = (.ok true, s₁))
    (h : Reading B mayGiveUp c (.variableStatement .let) s₁ a s') :
    Reading B mayGiveUp c .item s a s'
  | itemLetName {s s₁ s' a} (hk : s.kind = .kwLet) (hl : Parse.atLetDeclaration c s =
    (.ok false, s₁))
    (h : Reading B mayGiveUp c .statement s₁ a s') : Reading B mayGiveUp c .item s a s'
  | itemStatement {s s' a}
    (hk : s.kind ∉ [.kwFunction, .kwConst, .kwLet, .kwClass, .kwImport, .kwExport])
    (h : Reading B mayGiveUp c .statement s a s') : Reading B mayGiveUp c .item s a s'
  | statement {s s' a} (hn : s.nesting < maxNesting)
    (h : Reading B mayGiveUp c .statementInside s.deeper a s') :
    Reading B mayGiveUp c .statement s a s'.shallower
  | blockStatement {s s' a} (hk : s.kind = .leftBrace) (h : Reading B mayGiveUp c .block s a s') :
    Reading B mayGiveUp c .statementInside s a s'
  | varStatement {s s' a} (hk : s.kind = .kwVar)
    (h : Reading B mayGiveUp c (.variableStatement .var) s a s') :
    Reading B mayGiveUp c .statementInside s a s'
  | emptyStatement {s} (hk : s.kind = .semicolon) :
    Reading B mayGiveUp c .statementInside s (B.empty (s.next.spanFrom s.start)) s.next
  | ifStatement {s s₁ s' test consequent} (hk : s.kind = .kwIf)
    (ht : Reading B mayGiveUp c .condition s.next test s₁)
    (hc : Reading B mayGiveUp c .statement s₁ consequent s') (he : s'.kind ≠ .kwElse) :
    Reading B mayGiveUp c .statementInside s
      (B.branch (s'.spanFrom s.start) test consequent none) s'
  | ifElseStatement {s s₁ s₂ s' test consequent alternate} (hk : s.kind = .kwIf)
    (ht : Reading B mayGiveUp c .condition s.next test s₁)
    (hc : Reading B mayGiveUp c .statement s₁ consequent s₂) (he : s₂.kind = .kwElse)
    (ha : Reading B mayGiveUp c .statement s₂.next alternate s') :
    Reading B mayGiveUp c .statementInside s
      (B.branch (s'.spanFrom s.start) test consequent (some alternate)) s'
  | forStatement {s s' a} (hk : s.kind = .kwFor) (ho : s.next.kind = .leftParen)
    (h : Reading B mayGiveUp c (.forHead s.start) (s.next.next.onScopes .pushBlock) a s') :
    Reading B mayGiveUp c .statementInside s a s'
  | whileStatement {s s₁ s' test body} (hk : s.kind = .kwWhile)
    (ht : Reading B mayGiveUp c .condition s.next test s₁)
    (hb : Reading B mayGiveUp c .loopBody s₁ body s') :
    Reading B mayGiveUp c .statementInside s (B.loopWhile (s'.spanFrom s.start) test body) s'
  | doWhileStatement {s s₁ s₂ s' body test} (hk : s.kind = .kwDo)
    (hb : Reading B mayGiveUp c .loopBody s.next body s₁) (hw : s₁.kind = .kwWhile)
    (ht : Reading B mayGiveUp c .condition s₁.next test s₂)
    (he : s' = if s₂.kind = .semicolon then s₂.next else s₂) :
    Reading B mayGiveUp c .statementInside s (B.doWhile (s'.spanFrom s.start) body test) s'
  | continueStatement {s s' a} (hk : s.kind = .kwContinue)
    (h : Parse.continueStatement c s = (.ok a, s')) :
    Reading B mayGiveUp c .statementInside s a s'
  | breakStatement {s s' a} (hk : s.kind = .kwBreak)
    (h : Parse.breakStatement c s = (.ok a, s')) :
    Reading B mayGiveUp c .statementInside s a s'
  | returnStatement {s s'} (hk : s.kind = .kwReturn)
    (hf : s.scopes.function?.any (·.isFunction) = true)
    (hm : s.next.mayEnd = true) (he : Ends s.next s') :
    Reading B mayGiveUp c .statementInside s (B.leave (s'.spanFrom s.start) none) s'
  | returnValueStatement {s s₁ s' a} (hk : s.kind = .kwReturn)
    (hf : s.scopes.function?.any (·.isFunction) = true) (hm : s.next.mayEnd = false)
    (h : Reading B mayGiveUp c .expression s.next a s₁) (he : Ends s₁ s') :
    Reading B mayGiveUp c .statementInside s (B.leave (s'.spanFrom s.start) (some a)) s'
  | withStatement {s s₁ s' object body} (hk : s.kind = .kwWith) (hs : s.strict = false)
    (ho : Reading B mayGiveUp c .condition s.next object s₁)
    (hb : Reading B mayGiveUp c .statement (s₁.onScopes .activate) body s') :
    Reading B mayGiveUp c .statementInside s (B.withObject (s'.spanFrom s.start) object body) s'
  | switchStatement {s s₁ s₂ s' discriminant clauses scope} (hk : s.kind = .kwSwitch)
    (hd : Reading B mayGiveUp c .condition s.next discriminant s₁) (ho : s₁.kind = .leftBrace)
    (hc : Reading B mayGiveUp c (.clauses false)
      (s₁.next.onScopes (·.pushBlock.beginSwitch)) clauses s₂)
    (he : s₂.kind = .rightBrace)
    (hf : Parse.finishBlock c (s₂.onScopes .endSwitch).next = (.ok scope, s')) :
    Reading B mayGiveUp c .statementInside s
      (B.switch (s'.spanFrom s.start) discriminant clauses scope) s'
  | throwStatement {s s₁ s' a} (hk : s.kind = .kwThrow) (hn : s.next.newline = false)
    (h : Reading B mayGiveUp c .expression s.next a s₁) (he : Ends s₁ s') :
    Reading B mayGiveUp c .statementInside s (B.throw (s'.spanFrom s.start) a) s'
  | tryCatch {s s₁ s' guarded handler} (hk : s.kind = .kwTry)
    (hg : Reading B mayGiveUp c .block s.next guarded s₁) (hc : s₁.kind = .kwCatch)
    (hh : Reading B mayGiveUp c .catchClause s₁ handler s') (hf : s'.kind ≠ .kwFinally) :
    Reading B mayGiveUp c .statementInside s
      (B.attempt (s'.spanFrom s.start) guarded (some handler) none) s'
  | tryFinally {s s₁ s' guarded finalizer} (hk : s.kind = .kwTry)
    (hg : Reading B mayGiveUp c .block s.next guarded s₁) (hc : s₁.kind ≠ .kwCatch)
    (hf : s₁.kind = .kwFinally) (hb : Reading B mayGiveUp c .block s₁.next finalizer s') :
    Reading B mayGiveUp c .statementInside s
      (B.attempt (s'.spanFrom s.start) guarded none (some finalizer)) s'
  | tryCatchFinally {s s₁ s₂ s' guarded handler finalizer} (hk : s.kind = .kwTry)
    (hg : Reading B mayGiveUp c .block s.next guarded s₁) (hc : s₁.kind = .kwCatch)
    (hh : Reading B mayGiveUp c .catchClause s₁ handler s₂) (hf : s₂.kind = .kwFinally)
    (hb : Reading B mayGiveUp c .block s₂.next finalizer s') :
    Reading B mayGiveUp c .statementInside s
      (B.attempt (s'.spanFrom s.start) guarded (some handler) (some finalizer)) s'
  | debuggerStatement {s s'} (hk : s.kind = .kwDebugger) (he : Ends s.next s') :
    Reading B mayGiveUp c .statementInside s (B.debugger (s'.spanFrom s.start)) s'
  | functionStatement {s s' a} (hk : s.kind = .kwFunction) (hs : s.strict = false)
    (h : Reading B mayGiveUp c .functionDeclaration s a s') :
    Reading B mayGiveUp c .statementInside s a s'
  | letExpressionStatement {s s₁ s₂ s' a} (hk : s.kind = .kwLet)
    (hl : Parse.atLetDeclaration c s = (.ok false, s₁))
    (h : Reading B mayGiveUp c .expression s₁ a s₂) (he : Ends s₂ s') :
    Reading B mayGiveUp c .statementInside s (B.expression (s'.spanFrom s₁.start) a) s'
  | labeledStatement {s s₁ s₂ s' isLoop body} (hk : s.kind = .identifier)
    (hc : Parse.colonFollows c s = (.ok true, s₁)) (hn : s₁.scopes.label? s₁.token.text = none)
    (hc' : s₁.next.kind = .colon) (hl : Parse.labelsLoop c s₁.next.next = (.ok isLoop, s₂))
    (h : Reading B mayGiveUp c .statement
      (s₂.onScopes (·.pushLabel s₁.token.text isLoop)) body s') :
    Reading B mayGiveUp c .statementInside s
      (B.labeled ((s'.onScopes .popLabel).spanFrom s₁.start) s₁.token.text body)
      (s'.onScopes .popLabel)
  | nameStatement {s s₁ s₂ s' a} (hk : s.kind = .identifier)
    (hc : Parse.colonFollows c s = (.ok false, s₁))
    (h : Reading B mayGiveUp c .expression s₁ a s₂) (he : Ends s₂ s') :
    Reading B mayGiveUp c .statementInside s (B.expression (s'.spanFrom s₁.start) a) s'
  | expressionStatement {s s₁ s' a}
    (hk : s.kind ∉ [.leftBrace, .kwVar, .semicolon, .kwIf, .kwFor, .kwWhile, .kwDo,
      .kwContinue, .kwBreak,
      .kwReturn, .kwWith, .kwSwitch, .kwThrow, .kwTry, .kwDebugger, .kwFunction, .kwConst,
      .kwLet, .kwClass,
      .kwImport, .kwExport, .identifier])
    (h : Reading B mayGiveUp c .expression s a s₁) (he : Ends s₁ s') :
    Reading B mayGiveUp c .statementInside s (B.expression (s'.spanFrom s.start) a) s'
  -- Declarations
  | functionDeclaration {s s₁ s₂ s' conflicts parts}
    (hk : s.next.kind = .identifier)
    (hd : Parse.declaring (·.declare s.next.token.text (Parse.functionNameKind s.next)) c s.next =
      (.ok conflicts, s₁))
    (hn : Parse.functionNameFault? s.next.token.text conflicts s.next.strict = none)
    (h : Reading B mayGiveUp c
      (.functionParts s.start { name := some s.next.token.text, mode := .plainFunction })
      s₁.next parts s₂)
    (hr : Parse.recordFunction parts c s₂ = (.ok (), s')) :
    Reading B mayGiveUp c .functionDeclaration s (B.functionDeclaration parts) s'
  | variableStatement {s s₁ s' kind list}
    (h : Reading B mayGiveUp c (.declarators kind false) s.next list s₁) (he : Ends s₁ s') :
    Reading B mayGiveUp c (.variableStatement kind) s
      (B.declaration ⟨s'.spanFrom s.start, kind, list.declarators⟩) s'
  | lastDeclarator {s s' kind inHead d missing}
    (h : Reading B mayGiveUp c (.declarator kind inHead) s (d, missing) s')
    (hk : s'.kind ≠ .comma) :
    Reading B mayGiveUp c (.declarators kind inHead) s (.cons d missing {}) s'
  | moreDeclarators {s s₁ s' kind inHead d missing list}
    (h : Reading B mayGiveUp c (.declarator kind inHead) s (d, missing) s₁) (hk : s₁.kind = .comma)
    (hs : Reading B mayGiveUp c (.declarators kind inHead) s₁.next list s') :
    Reading B mayGiveUp c (.declarators kind inHead) s (.cons d missing list) s'
  | initializedDeclarator {s s₁ s₂ s₃ s' kind inHead target names init}
    (ht : Reading B mayGiveUp c (.declaratorTarget kind) s target s₁)
    (hn : Parse.takeBoundNames s.boundNames.length c s₁ = (.ok names, s₂)) (hk : s₂.kind = .equal)
    (hw : Parse.writeNames names c s₂.next = (.ok (), s₃))
    (hi : Reading B mayGiveUp c .assignment s₃ init s') :
    Reading B mayGiveUp c (.declarator kind inHead) s
      (⟨s'.spanFrom s.start, target, some init⟩, none) s'
  | bareDeclarator {s s₁ s' kind inHead target names}
    (ht : Reading B mayGiveUp c (.declaratorTarget kind) s target s₁)
    (hn : Parse.takeBoundNames s.boundNames.length c s₁ = (.ok names, s')) (hk : s'.kind ≠ .equal)
    (hr : ((kind == .const || s.atBracket) && !inHead) = false) :
    Reading B mayGiveUp c (.declarator kind inHead) s
      (⟨s'.spanFrom s.start, target, none⟩,
        if kind == .const || s.atBracket then some s.token.extent else none) s'
  | declaratorPattern {s s' kind a} (hk : s.atBracket = true)
    (h : Reading B mayGiveUp c (.pattern (.variable kind)) s a s') :
    Reading B mayGiveUp c (.declaratorTarget kind) s a s'
  | declaratorName {s s' kind a} (hk : s.atBracket = false)
    (h : Parse.bindingName B (.variable kind) c s = (.ok a, s')) :
    Reading B mayGiveUp c (.declaratorTarget kind) s a s'
  -- Blocks and lists of statements
  | block {s s₁ s' body scope} (hk : s.kind = .leftBrace)
    (h : Reading B mayGiveUp c (.itemsUntil (· == .rightBrace))
      (s.next.onScopes .pushBlock) body s₁)
    (he : s₁.kind = .rightBrace) (hf : Parse.finishBlock c s₁.next = (.ok scope, s')) :
    Reading B mayGiveUp c .block s (B.block ⟨s'.spanFrom s.start, body, scope⟩) s'
  | noItems {s close} (hk : close s.kind = true) : Reading B mayGiveUp c (.itemsUntil close) s [] s
  | moreItems {s s₁ s' close a as} (hk : close s.kind = false) (he : s.kind ≠ .eof)
    (h : Reading B mayGiveUp c .item s a s₁)
    (hs : Reading B mayGiveUp c (.itemsUntil close) s₁ as s') :
    Reading B mayGiveUp c (.itemsUntil close) s (a :: as) s'
  | body {s s' close start as} (h : Reading B mayGiveUp c (.items close true) s as s') :
    Reading B mayGiveUp c (.body close start) s as s'
  | restartedBody {s s₁ s₂ s₃ s' close start before d as}
    (hd : Reading B mayGiveUp c (.directives close) s before s₁) (hc : s₁.kind ≠ close)
    (hk : s₁.kind = .string) (h : Reading B mayGiveUp c .item s₁ d s₂) (hi : B.isDirective d = true)
    (hs : Parse.isStrictDirective s₁.token = true) (hn : s₂.strict = false)
    (he : Parse.enableStrict s₁.token.extent c s₂ = (.ok (), s₃))
    (hb : Reading B mayGiveUp c (.body close start)
      (s₃.restart s₁.token.extent.start start) as s') :
    Reading B mayGiveUp c (.body close start) s as s'
  | noDirectives {s close} : Reading B mayGiveUp c (.directives close) s [] s
  | moreDirectives {s s₁ s' close a as} (hc : s.kind ≠ close) (hk : s.kind = .string)
    (h : Reading B mayGiveUp c .item s a s₁) (hi : B.isDirective a = true)
    (hs : (Parse.isStrictDirective s.token && !s₁.strict) = false)
    (ht : Reading B mayGiveUp c (.directives close) s₁ as s') :
    Reading B mayGiveUp c (.directives close) s (a :: as) s'
  | bodyEnd {s close prologue} (hc : s.kind = close) : Reading B mayGiveUp c
    (.items close prologue) s [] s
  | directiveItem {s s₁ s' close a as} (hc : s.kind ≠ close) (hk : s.kind = .string)
    (h : Reading B mayGiveUp c .item s a s₁) (hi : B.isDirective a = true)
    (hs : (Parse.isStrictDirective s.token && !s₁.strict) = false)
    (ht : Reading B mayGiveUp c (.items close true) s₁ as s') :
    Reading B mayGiveUp c (.items close true) s (a :: as) s'
  | bodyItem {s s₁ s' close prologue a as} (hc : s.kind ≠ close) (he : s.kind ≠ .eof)
    (h : Reading B mayGiveUp c .item s a s₁)
    (hi : (prologue && s.kind == .string && B.isDirective a) = false)
    (ht : Reading B mayGiveUp c (.items close false) s₁ as s') :
    Reading B mayGiveUp c (.items close prologue) s (a :: as) s'
  -- Loops and other compound statements
  | condition {s s' a} (ho : s.kind = .leftParen)
    (h : Reading B mayGiveUp c .expression s.next a s')
    (hc : s'.kind = .rightParen) : Reading B mayGiveUp c .condition s a s'.next
  | loopBody {s s' a} (h : Reading B mayGiveUp c .statement (s.onScopes .beginLoop) a s') :
    Reading B mayGiveUp c .loopBody s a (s'.onScopes .endLoop)
  | emptyHead {s s' start a} (hk : s.kind = .semicolon)
    (h : Reading B mayGiveUp c (.countedLoop start none) s a s') : Reading B mayGiveUp c
    (.forHead start) s a s'
  | declaringHead {s s₁ s' start kind a} (hk : s.kind ≠ .semicolon)
    (hh : Parse.headKind? c s = (.ok (some kind), s₁))
    (h : Reading B mayGiveUp c (.declaringLoop start kind) s₁ a s') :
    Reading B mayGiveUp c (.forHead start) s a s'
  | assigningHead {s s₁ s' start a} (hk : s.kind ≠ .semicolon)
    (hh : Parse.headKind? c s = (.ok none, s₁))
    (h : Reading B mayGiveUp c (.assigningLoop start) s₁ a s') : Reading B mayGiveUp c
      (.forHead start) s a s'
  | declaringEach {s s₁ s' start kind list loop a}
    (hd : Reading B mayGiveUp c (.declarators kind true) (s.next.allow false) list s₁)
    (hl : s₁.eachLoop? = some loop) (hf : Parse.eachFault? list loop = none)
    (h : Reading B mayGiveUp c
      (.eachLoop start (.declaration (B.declaration ⟨s₁.spanFrom s.start, kind, list.declarators⟩))
        loop)
      (s₁.allow s.allowsIn) a s') :
    Reading B mayGiveUp c (.declaringLoop start kind) s a s'
  | declaringCounted {s s₁ s' start kind list a}
    (hd : Reading B mayGiveUp c (.declarators kind true) (s.next.allow false) list s₁)
    (hl : s₁.eachLoop? = none) (hf : list.missing = none)
    (h : Reading B mayGiveUp c
      (.countedLoop start
        (some (.declaration (B.declaration ⟨s₁.spanFrom s.start, kind, list.declarators⟩))))
      (s₁.allow s.allowsIn) a s') :
    Reading B mayGiveUp c (.declaringLoop start kind) s a s'
  | patternEach {s s₁ s' start target loop a}
    (ht : Reading B mayGiveUp c (.attempt (·.eachLoop?.isSome)) s (some target) s₁)
    (hl : s₁.eachLoop? = some loop)
    (h : Reading B mayGiveUp c (.eachLoop start (.pattern target) loop) s₁ a s') :
    Reading B mayGiveUp c (.assigningLoop start) s a s'
  | noPatternLoop {s s₁ s' start a}
    (ht : Reading B mayGiveUp c (.attempt (·.eachLoop?.isSome)) s none s₁)
    (h : Reading B mayGiveUp c (.expressionLoop start) s₁ a s') :
    Reading B mayGiveUp c (.assigningLoop start) s a s'
  | expressionEach {s s₁ s₂ s' start left loop a}
    (hl : Reading B mayGiveUp c .expression (s.allow false) left s₁) (ho : s₁.eachLoop? = some loop)
    (ht : B.isTarget left = true)
    (hw : Parse.noteAssignment B left s.token.extent c (s₁.allow s.allowsIn) = (.ok (), s₂))
    (h : Reading B mayGiveUp c (.eachLoop start (.expression left) loop) s₂ a s') :
    Reading B mayGiveUp c (.expressionLoop start) s a s'
  | expressionCounted {s s₁ s' start left a}
    (hl : Reading B mayGiveUp c .expression (s.allow false) left s₁) (ho : s₁.eachLoop? = none)
    (h : Reading B mayGiveUp c (.countedLoop start (some (.expression left)))
      (s₁.allow s.allowsIn) a s') :
    Reading B mayGiveUp c (.expressionLoop start) s a s'
  | countedLoop {s s₁ s₂ s₃ s' start init test update body scope} (h₁ : s.kind = .semicolon)
    (ht : Reading B mayGiveUp c (.expressionBefore .semicolon) s.next test s₁)
    (h₂ : s₁.kind = .semicolon)
    (hu : Reading B mayGiveUp c (.expressionBefore .rightParen) s₁.next update s₂)
    (h₃ : s₂.kind = .rightParen) (hb : Reading B mayGiveUp c .loopBody s₂.next body s₃)
    (hf : Parse.finishBlock c s₃ = (.ok scope, s')) :
    Reading B mayGiveUp c (.countedLoop start init) s
      (B.loop (s'.spanFrom start) init test update body scope) s'
  | forOf {s s₁ s₂ s' start left right body scope}
    (hr : Reading B mayGiveUp c .assignment s.next right s₁)
    (hc : s₁.kind = .rightParen) (hb : Reading B mayGiveUp c .loopBody s₁.next body s₂)
    (hf : Parse.finishBlock c s₂ = (.ok scope, s')) :
    Reading B mayGiveUp c (.eachLoop start left .forOf) s
      (B.loopEach .forOf (s'.spanFrom start) left right body scope) s'
  | forIn {s s₁ s₂ s' start left right body scope}
    (hr : Reading B mayGiveUp c .expression s.next right s₁)
    (hc : s₁.kind = .rightParen) (hb : Reading B mayGiveUp c .loopBody s₁.next body s₂)
    (hf : Parse.finishBlock c s₂ = (.ok scope, s')) :
    Reading B mayGiveUp c (.eachLoop start left .forIn) s
      (B.loopEach .forIn (s'.spanFrom start) left right body scope) s'
  | noExpressionBefore {s close} (hk : s.kind = close) :
    Reading B mayGiveUp c (.expressionBefore close) s none s
  | someExpressionBefore {s s' close a} (hk : s.kind ≠ close)
    (h : Reading B mayGiveUp c .expression s a s') :
    Reading B mayGiveUp c (.expressionBefore close) s (some a) s'
  | noClauses {s hasDefault} (hk : s.kind = .rightBrace) :
    Reading B mayGiveUp c (.clauses hasDefault) s [] s
  | moreClauses {s s₁ s₂ s' hasDefault test body clauses} (hk : s.kind ≠ .rightBrace)
    (ht : Reading B mayGiveUp c (.clauseTest hasDefault) s test s₁) (hc : s₁.kind = .colon)
    (hb : Reading B mayGiveUp c (.itemsUntil Parse.endsClause) s₁.next body s₂)
    (h : Reading B mayGiveUp c (.clauses (hasDefault || test.isNone)) s₂ clauses s') :
    Reading B mayGiveUp c (.clauses hasDefault) s (⟨s₂.spanFrom s.start, test, body⟩ :: clauses) s'
  | caseClause {s s' hasDefault a} (hk : s.kind = .kwCase)
    (h : Reading B mayGiveUp c .expression s.next a s') :
    Reading B mayGiveUp c (.clauseTest hasDefault) s (some a) s'
  | defaultClause {s} (hk : s.kind = .kwDefault) :
    Reading B mayGiveUp c (.clauseTest false) s none s.next
  | catchClause {s s₁ s₂ s' parameter body scope} (ho : s.next.kind = .leftParen)
    (hp : Reading B mayGiveUp c .catchParameter (s.next.next.onScopes .pushBlock) parameter s₁)
    (hc : s₁.kind = .rightParen) (hb : s₁.next.kind = .leftBrace)
    (h : Reading B mayGiveUp c (.itemsUntil (· == .rightBrace)) s₁.next.next body s₂)
    (he : s₂.kind = .rightBrace) (hf : Parse.finishBlock c s₂.next = (.ok scope, s')) :
    Reading B mayGiveUp c .catchClause s
      ⟨s'.spanFrom s.start, parameter, B.block ⟨s'.spanFrom s₁.next.start, body, scope⟩⟩ s'
  | catchName {s s' a} (hk : s.atBindingName = true)
    (h : Parse.bindingName B .catchParameter c s = (.ok a, s')) :
    Reading B mayGiveUp c .catchParameter s a s'
  | catchPattern {s s' a} (hn : s.atBindingName = false) (hk : s.atBracket = true)
    (h : Reading B mayGiveUp c (.pattern .catchParameter) s a s') :
    Reading B mayGiveUp c .catchParameter s a s'
  -- Operators
  | assignment {s s' a} (hn : s.nesting < maxNesting)
    (h : Reading B mayGiveUp c .assignmentInside s.deeper a s') :
    Reading B mayGiveUp c .assignment s a s'.shallower
  | arrowFunction {s s₁ s' a} (ha : Parse.atArrowFunction c s = (.ok true, s₁))
    (h : Reading B mayGiveUp c
      (.functionNode s.start { name := none, mode := .arrowFunction, form := .arrow }) s₁ a s') :
    Reading B mayGiveUp c .assignmentInside s a s'
  | patternAssignment {s s₁ s₂ s' target value} (ha : Parse.atArrowFunction c s = (.ok false, s₁))
    (ht : Reading B mayGiveUp c (.attempt (·.kind == .equal)) s₁ (some target) s₂)
    (hv : Reading B mayGiveUp c .assignment s₂.next value s') :
    Reading B mayGiveUp c .assignmentInside s
      (B.assignPattern (s'.spanFrom s.start) target value) s'
  | noPatternAssignment {s s₁ s₂ s' a} (ha : Parse.atArrowFunction c s = (.ok false, s₁))
    (ht : Reading B mayGiveUp c (.attempt (·.kind == .equal)) s₁ none s₂)
    (h : Reading B mayGiveUp c .plainAssignment s₂ a s') :
      Reading B mayGiveUp c .assignmentInside s a s'
  | noAssignment {s s' a} (h : Reading B mayGiveUp c .conditional s a s')
    (hk : AssignOp.ofToken? s'.kind = none) : Reading B mayGiveUp c .plainAssignment s a s'
  | targetAssignment {s s₁ s₂ s' target op value}
    (h : Reading B mayGiveUp c .conditional s target s₁)
    (hk : AssignOp.ofToken? s₁.kind = some op) (ht : B.isTarget target = true)
    (hw : Parse.noteAssignment B target s.token.extent c s₁ = (.ok (), s₂))
    (hv : Reading B mayGiveUp c .assignment s₂.next value s') :
    Reading B mayGiveUp c .plainAssignment s (B.assign (s'.spanFrom s.start) op target value) s'
  | noBracket {s accept} (hk : s.atBracket = false) : Reading B mayGiveUp c
    (.attempt accept) s none s
  | noAttempt {s s' accept} (hk : s.atBracket = true)
    (hf : Parse.followsBrackets accept c s = (.ok false, s')) :
    Reading B mayGiveUp c (.attempt accept) s none s'
  | attempt {s s₁ s₂ s' accept a} (hk : s.atBracket = true)
    (hf : Parse.followsBrackets accept c s = (.ok true, s₁))
    (h : Reading B mayGiveUp c (.pattern .assignment) s₁ a s₂) (ha : accept s₂ = true)
    (hw : Parse.commitWrites s₁.checkpoint c s₂ = (.ok (), s')) :
    Reading B mayGiveUp c (.attempt accept) s (some a) s'
  | givenUp {s s₁ s' accept n} {found : Option B.Pattern} (hg : mayGiveUp) (hk : s.atBracket = true)
    (hf : Parse.followsBrackets accept c s = (.ok true, s₁))
    (h : Parse.attempt (Rules.pattern (Rules.bounded B n) .assignment) c s₁ = (.ok found, s'))
    (ha : (found.isSome && accept s') = false) :
    Reading B mayGiveUp c (.attempt accept) s none (s'.backtrack s₁.checkpoint)
  | noConditional {s s' a} (h : Reading B mayGiveUp c .binary s a s') (hk : s'.kind ≠ .question) :
    Reading B mayGiveUp c .conditional s a s'
  | conditional {s s₁ s₂ s' test consequent alternate}
    (ht : Reading B mayGiveUp c .binary s test s₁)
    (hk : s₁.kind = .question)
    (hc : Reading B mayGiveUp c .assignment (s₁.next.allow true) consequent s₂)
    (hc' : s₂.kind = .colon)
    (ha : Reading B mayGiveUp c .assignment (s₂.allow s₁.allowsIn).next alternate s') :
    Reading B mayGiveUp c .conditional s
      (B.conditional (s'.spanFrom s.start) test consequent alternate) s'
  | binary {s s₁ s' operand a} (h : Reading B mayGiveUp c .operand s operand s₁)
    (hr : Reading B mayGiveUp c (.binaryRest ⟨[], operand⟩) s₁ a s') :
    Reading B mayGiveUp c .binary s a s'
  | binaryEnd {s scan} (hk : s.binaryOp? = none) :
    Reading B mayGiveUp c (.binaryRest scan) s
      (Parse.reduce 0 scan.waiting scan.operand).2.expression s
  | binaryMore {s s₁ s' scan op waiting left operand a} (hk : s.binaryOp? = some op)
    (hr : Parse.reduce (s.kind.precedence s.allowsIn) scan.waiting scan.operand = (waiting, left))
    (h : Reading B mayGiveUp c .operand s.next operand s₁)
    (ht : Reading B mayGiveUp c
      (.binaryRest ⟨⟨left, op, s.kind.precedence s.allowsIn⟩ :: waiting, operand⟩) s₁ a s') :
    Reading B mayGiveUp c (.binaryRest scan) s a s'
  | operand {s s' first a} (h : Reading B mayGiveUp c (.unary first) s a s') :
    Reading B mayGiveUp c .operand s ⟨a, s'.spanFrom s.start⟩ s'
  | noUnary {s s' a} (hk : s.kind.isUnary = false) (h : Reading B mayGiveUp c .postfixed s a s') :
    Reading B mayGiveUp c (.unary s.token.extent) s a s'
  | prefixUpdate {s s₁ s' first op a} (hk : s.kind.isUnary = true)
    (h : Reading B mayGiveUp c (.unary first) s.next a s₁) (ho : UpdateOp.ofToken? s.kind = some op)
    (ht : B.isTarget a = true) (hw : Parse.noteAssignment B a first c s₁ = (.ok (), s')) :
    Reading B mayGiveUp c (.unary first) s (B.update (s₁.spanFrom s.start) op true a) s'
  | prefixUnary {s s' first op a} (hk : s.kind.isUnary = true)
    (h : Reading B mayGiveUp c (.unary first) s.next a s') (hu : UpdateOp.ofToken? s.kind = none)
    (ho : UnaryOp.ofToken? s.kind = some op)
    (hd : (op == .delete && s'.strict && (B.name? a).isSome) = false) :
    Reading B mayGiveUp c (.unary first) s (B.unary (s'.spanFrom s.start) op a) s'
  | noPostfix {s s' a} (h : Reading B mayGiveUp c .leftHandSide s a s')
    (hk : UpdateOp.ofToken? s'.kind = none ∨ s'.newline = true) :
    Reading B mayGiveUp c .postfixed s a s'
  | postfixUpdate {s s₁ s' op a} (h : Reading B mayGiveUp c .leftHandSide s a s₁)
    (hk : UpdateOp.ofToken? s₁.kind = some op) (hn : s₁.newline = false) (ht : B.isTarget a = true)
    (hw : Parse.noteAssignment B a s.token.extent c s₁ = (.ok (), s')) :
    Reading B mayGiveUp c .postfixed s (B.update (s'.next.spanFrom s.start) op false a) s'.next
  -- Operands
  | leftHandSide {s s₁ s₂ s' waiting a chain}
    (hn : Reading B mayGiveUp c (.news []) s (waiting, none) s₁)
    (h : Reading B mayGiveUp c .head s₁ a s₂)
    (hm : Reading B mayGiveUp c (.members s.start s₁.start ⟨a, waiting⟩) s₂ chain s') :
    Reading B mayGiveUp c .leftHandSide s
      (chain.news.foldl (fun e new => B.construct ⟨new, s'.lastEnd⟩ e none) chain.expression) s'
  | newTargetSide {s s₁ s' waiting a chain}
    (hn : Reading B mayGiveUp c (.news []) s (waiting, some a) s₁)
    (hm : Reading B mayGiveUp c (.members s.start s₁.start ⟨a, waiting⟩) s₁ chain s') :
    Reading B mayGiveUp c .leftHandSide s
      (chain.news.foldl (fun e new => B.construct ⟨new, s'.lastEnd⟩ e none) chain.expression) s'
  | noNews {s waiting} (hk : s.kind ≠ .kwNew) : Reading B mayGiveUp c (.news waiting) s
    (waiting, none) s
  | newTarget {s s' waiting a} (hk : s.kind = .kwNew) (hd : s.next.kind = .dot)
    (h : Parse.newTarget s c s.next.next = (.ok a, s')) :
    Reading B mayGiveUp c (.news waiting) s (waiting, some a) s'
  | moreNews {s s' waiting a} (hk : s.kind = .kwNew) (hd : s.next.kind ≠ .dot)
    (h : Reading B mayGiveUp c (.news (s.start :: waiting)) s.next a s') :
    Reading B mayGiveUp c (.news waiting) s a s'
  | superHead {s s' a} (hk : s.kind = .kwSuper) (h : Parse.superExpression c s = (.ok a, s')) :
    Reading B mayGiveUp c .head s a s'
  | primaryHead {s s' a} (hk : s.kind ≠ .kwSuper) (h : Reading B mayGiveUp c .primary s a s') :
    Reading B mayGiveUp c .head s a s'
  | membersEnd {s start first chain} (hk : s.kind ∉ [.dot, .leftBracket, .leftParen, .backQuote]) :
    Reading B mayGiveUp c (.members start first chain) s chain s
  | member {s s' start first a} {chain : MemberChain B.Expression} (hk : s.kind = .dot)
    (hn : s.next.kind.isIdentifierName = true)
    (h : Reading B mayGiveUp c
      (.members start first
        ⟨B.member (s.next.next.spanFrom (if chain.news.isEmpty then start else first))
          chain.expression
          s.next.token.name, chain.news⟩) s.next.next a s') :
    Reading B mayGiveUp c (.members start first chain) s a s'
  | index {s s₁ s' start first key a} {chain : MemberChain B.Expression}
    (hk : s.kind = .leftBracket)
    (hx : Reading B mayGiveUp c .expression (s.next.allow true) key s₁)
    (he : s₁.kind = .rightBracket)
    (h : Reading B mayGiveUp c
      (.members start first
        ⟨B.index ((s₁.allow s.allowsIn).next.spanFrom (if chain.news.isEmpty then start else first))
          chain.expression key, chain.news⟩) (s₁.allow s.allowsIn).next a s') :
    Reading B mayGiveUp c (.members start first chain) s a s'
  | construct {s s₁ s' start first new waiting callee args a} (hk : s.kind = .leftParen)
    (hx : Reading B mayGiveUp c .arguments s args s₁)
    (h : Reading B mayGiveUp c
      (.members start first ⟨B.construct (s₁.spanFrom new) callee (some args), waiting⟩) s₁ a s') :
    Reading B mayGiveUp c (.members start first ⟨callee, new :: waiting⟩) s a s'
  | call {s s₁ s' start first callee args a} (hk : s.kind = .leftParen)
    (hx : Reading B mayGiveUp c .arguments s args s₁)
    (h : Reading B mayGiveUp c
      (.members start first ⟨B.call (s₁.spanFrom start) callee args, []⟩) s₁ a s') :
    Reading B mayGiveUp c (.members start first ⟨callee, []⟩) s a s'
  | functionExpression {s s' a} (hk : s.kind = .kwFunction) (hn : s.next.kind ≠ .identifier)
    (h : Reading B mayGiveUp c (.functionNode s.start { name := none, mode := .plainFunction })
      s.next a s') :
    Reading B mayGiveUp c .primary s a s'
  | namedFunctionExpression {s s' a} (hk : s.kind = .kwFunction) (hn : s.next.kind = .identifier)
    (h : Reading B mayGiveUp c
      (.functionNode s.start
        { name := some s.next.token.text, mode := .plainFunction, bindsOwnName := true })
      s.next.next a s') :
    Reading B mayGiveUp c .primary s a s'
  | group {s s' a} (hk : s.kind = .leftParen)
    (h : Reading B mayGiveUp c .expression (s.next.allow true) a s') (he : s'.kind = .rightParen) :
    Reading B mayGiveUp c .primary s a (s'.allow s.allowsIn).next
  | array {s s' elements} (hk : s.kind = .leftBracket)
    (h : Reading B mayGiveUp c .elements (s.next.allow true) elements s') (he : s'.kind =
      .rightBracket) :
    Reading B mayGiveUp c .primary s
      (B.array ((s'.allow s.allowsIn).next.spanFrom s.start) elements) (s'.allow s.allowsIn).next
  | object {s s' properties} (hk : s.kind = .leftBrace)
    (h : Reading B mayGiveUp c (.properties .none false) (s.next.allow true) properties s')
    (he : s'.kind = .rightBrace) :
    Reading B mayGiveUp c .primary s
      (B.object ((s'.allow s.allowsIn).next.spanFrom s.start) properties) (s'.allow s.allowsIn).next
  | literal {s make} (hk : s.token.literal? B = some make) :
    Reading B mayGiveUp c .primary s (make (s.next.spanFrom s.start)) s.next
  | reference {s name} (hk : s.reference? = some name) :
    Reading B mayGiveUp c .primary s
      (B.ident ((s.next.onScopes (·.use name)).spanFrom s.start) name)
      (s.next.onScopes (·.use name))
  | regexp {s} (hk : s.kind = .slash ∨ s.kind = .slashEqual)
    (he : s.readRegexp.kind.isError = false) :
    Reading B mayGiveUp c .primary s
      (B.regexp (s.readRegexp.next.spanFrom s.start) s.readRegexp.token.regexpParts.1
        s.readRegexp.token.regexpParts.2) s.readRegexp.next
  | single {s s' a} (h : Reading B mayGiveUp c .assignment s a s') (hk : s'.kind ≠ .comma) :
    Reading B mayGiveUp c .expression s a s'
  | sequence {s s₁ s' a as} (h : Reading B mayGiveUp c .assignment s a s₁) (hk : s₁.kind = .comma)
    (hs : Reading B mayGiveUp c .moreExpressions s₁ as s') :
    Reading B mayGiveUp c .expression s (B.sequence (s'.spanFrom s.start) (a :: as)) s'
  | noMoreExpressions {s} (hk : s.kind ≠ .comma) : Reading B mayGiveUp c .moreExpressions s [] s
  | moreExpressions {s s₁ s' a as} (hk : s.kind = .comma)
    (h : Reading B mayGiveUp c .assignment s.next a s₁)
    (hs : Reading B mayGiveUp c .moreExpressions s₁ as s') :
    Reading B mayGiveUp c .moreExpressions s (a :: as) s'
  | arguments {s s' args} (hk : s.kind = .leftParen)
    (h : Reading B mayGiveUp c .argumentList (s.next.allow true) args s')
    (he : s'.kind = .rightParen) :
    Reading B mayGiveUp c .arguments s args (s'.allow s.allowsIn).next
  | noArguments {s} (hk : s.kind = .rightParen) : Reading B mayGiveUp c .argumentList s [] s
  | lastArgument {s s' a} (hk : s.kind ≠ .rightParen) (h : Reading B mayGiveUp c .spreadable s a s')
    (hc : s'.kind ≠ .comma) : Reading B mayGiveUp c .argumentList s [a] s'
  | moreArguments {s s₁ s' a as} (hk : s.kind ≠ .rightParen)
    (h : Reading B mayGiveUp c .spreadable s a s₁)
    (hc : s₁.kind = .comma) (hs : Reading B mayGiveUp c .argumentList s₁.next as s') :
    Reading B mayGiveUp c .argumentList s (a :: as) s'
  | spread {s s' a} (hk : s.kind = .dotDotDot) (h : Reading B mayGiveUp c .assignment s.next a s') :
    Reading B mayGiveUp c .spreadable s (B.spread (s'.spanFrom s.start) a) s'
  | noSpread {s s' a} (hk : s.kind ≠ .dotDotDot) (h : Reading B mayGiveUp c .assignment s a s') :
    Reading B mayGiveUp c .spreadable s a s'
  | noElements {s} (hk : s.kind = .rightBracket) : Reading B mayGiveUp c .elements s [] s
  | hole {s s' as} (hk : s.kind = .comma) (h : Reading B mayGiveUp c .elements s.next as s') :
    Reading B mayGiveUp c .elements s (none :: as) s'
  | lastElement {s s' a} (hb : s.kind ≠ .rightBracket) (hc : s.kind ≠ .comma)
    (h : Reading B mayGiveUp c .spreadable s a s') (he : s'.kind = .rightBracket) :
    Reading B mayGiveUp c .elements s [some a] s'
  | moreElements {s s₁ s' a as} (hb : s.kind ≠ .rightBracket) (hc : s.kind ≠ .comma)
    (h : Reading B mayGiveUp c .spreadable s a s₁) (he : s₁.kind = .comma)
    (hs : Reading B mayGiveUp c .elements s₁.next as s') :
    Reading B mayGiveUp c .elements s (some a :: as) s'
  -- Object literals
  | noProperties {s names prototype} (hk : s.kind = .rightBrace) :
    Reading B mayGiveUp c (.properties names prototype) s [] s
  | lastProperty {s s' names names' prototype prototype' p} (hk : s.kind ≠ .rightBrace)
    (h : Reading B mayGiveUp c (.property names prototype) s (p, names', prototype') s')
    (hc : s'.kind ≠ .comma) : Reading B mayGiveUp c (.properties names prototype) s [p] s'
  | moreProperties {s s₁ s' names names' prototype prototype' p ps} (hk : s.kind ≠ .rightBrace)
    (h : Reading B mayGiveUp c (.property names prototype) s (p, names', prototype') s₁)
    (hc : s₁.kind = .comma)
    (hs : Reading B mayGiveUp c (.properties names' prototype') s₁.next ps s') :
    Reading B mayGiveUp c (.properties names prototype) s (p :: ps) s'
  | spreadProperty {s s' names prototype a} (hk : s.kind = .dotDotDot)
    (h : Reading B mayGiveUp c .assignment s.next a s') :
    Reading B mayGiveUp c (.property names prototype) s
      (B.spreadEntry (s'.spanFrom s.start) a, names, prototype) s'
  | accessor {s s₁ s₂ s' names names' prototype kind key a} (hk : s.kind ≠ .dotDotDot)
    (ha : Parse.accessor? c s = (.ok (some kind), s₁))
    (hx : Reading B mayGiveUp c .propertyKey (s₁.noteAccessor names).next key s₂)
    (hn : names.addAccessorKey key kind = .ok names')
    (h : Reading B mayGiveUp c
      (.functionNode s₁.start { name := key.name?, mode := Parse.accessorMode kind }) s₂ a s') :
    Reading B mayGiveUp c (.property names prototype) s
      (B.entry (s'.spanFrom s₁.start) key kind a, names', prototype) s'
  | dataProperty {s s₁ s₂ s' names names' prototype prototype' key kind a}
    (hk : s.kind ≠ .dotDotDot)
    (ha : Parse.accessor? c s = (.ok none, s₁)) (hx : Reading B mayGiveUp c .propertyKey s₁ key s₂)
    (h : Reading B mayGiveUp c (.propertyValue s₁ key prototype) s₂ (kind, a, prototype') s')
    (hn : names.addDataKey key = .ok names') :
    Reading B mayGiveUp c (.property names prototype) s
      (B.entry (s'.spanFrom s₁.start) key kind a, names', prototype') s'
  | value {s s' start prototype a} {key : PropertyKey B.Expression} (hk : s.kind = .colon)
    (h : Reading B mayGiveUp c .assignment s.next a s')
    (hp : (Parse.namesPrototype key && prototype) = false) :
    Reading B mayGiveUp c (.propertyValue start key prototype) s
      (.value, a, Parse.namesPrototype key || prototype) s'
  | method {s s' start prototype a} {key : PropertyKey B.Expression} (hk : s.kind = .leftParen)
    (h : Reading B mayGiveUp c (.functionNode start.start { name := key.name?, mode := .method }) s
      a s') :
    Reading B mayGiveUp c (.propertyValue start key prototype) s (.method, a, prototype) s'
  | shorthand {s start prototype} {key : PropertyKey B.Expression} (hi : start.kind = .identifier)
    (hk : s.kind = .comma ∨ s.kind = .rightBrace) :
    Reading B mayGiveUp c (.propertyValue start key prototype) s
      (.shorthand, B.ident ((s.onScopes (·.use (key.name?.getD ""))).spanFrom start.start)
        (key.name?.getD ""), prototype) (s.onScopes (·.use (key.name?.getD "")))
  | plainKey {s key} (hk : s.token.key? = some key) :
    Reading B mayGiveUp c .propertyKey s key s.next
  | computedKey {s s' a} (hk : s.kind = .leftBracket)
    (h : Reading B mayGiveUp c .assignment s.next a s')
    (he : s'.kind = .rightBracket) : Reading B mayGiveUp c .propertyKey s (.computed a) s'.next
  -- Functions
  | functionNode {s s₁ s' start header parts}
    (h : Reading B mayGiveUp c (.functionParts start header) s parts s₁)
    (hr : Parse.recordFunction parts c s₁ = (.ok (), s')) :
    Reading B mayGiveUp c (.functionNode start header) s (B.function parts) s'
  | functionParts {s s' start header parts}
    (h : Reading B mayGiveUp c (.functionInside start header s.allowsIn)
      (s.enter header) parts s') :
    Reading B mayGiveUp c (.functionParts start header) s parts (s'.leaveTo s)
  | functionInside {s s₁ s₂ s₃ s' start header outerIn parameters body scope}
    (hp : Reading B mayGiveUp c (.parameters header) s parameters s₁)
    (hc : Parse.checkParameters header parameters c s₁ = (.ok (), s₂))
    (ha : (if header.form == .arrow then Parse.consumeArrow else pure ()) c s₂ = (.ok (), s₃))
    (hb : Reading B mayGiveUp c (.functionBody header outerIn) s₃ (body, scope) s') :
    Reading B mayGiveUp c (.functionInside start header outerIn) s
      { span := s'.spanFrom start
        parametersStart := s.token.extent.start
        bodySpan := s'.spanFrom s₃.start
        name := header.name
        mode := header.mode
        form := header.form
        constructorKind := header.constructorKind
        parameters, body, scope } s'
  | soleParameter {s s' header a} (hf : header.form = .arrow) (hk : s.atBindingName = true)
    (h : Parse.bindingName B .parameter c s = (.ok a, s')) :
    Reading B mayGiveUp c (.parameters header) s [⟨s'.spanFrom s.start, a, none, false⟩] s'
  | parameters {s s' header as} (hf : (header.form == .arrow && s.atBindingName) = false)
    (ho : s.kind = .leftParen) (h : Reading B mayGiveUp c .formals s.next as s')
    (hc : s'.kind = .rightParen) : Reading B mayGiveUp c (.parameters header) s as s'.next
  | noFormals {s} (hk : s.kind = .rightParen) : Reading B mayGiveUp c .formals s [] s
  | restFormal {s s' a} (hk : s.kind = .dotDotDot)
    (h : Reading B mayGiveUp c .parameterTarget s.next.noteRich a s') (hc : s'.kind = .rightParen) :
    Reading B mayGiveUp c .formals s [⟨s'.spanFrom s.start, a, none, true⟩] s'
  | lastFormal {s s' a} (hk : s.kind ≠ .rightParen) (hd : s.kind ≠ .dotDotDot)
    (h : Reading B mayGiveUp c .formal s a s') (hc : s'.kind ≠ .comma) :
    Reading B mayGiveUp c .formals s [a] s'
  | moreFormals {s s₁ s' a as} (hk : s.kind ≠ .rightParen) (hd : s.kind ≠ .dotDotDot)
    (h : Reading B mayGiveUp c .formal s a s₁) (hc : s₁.kind = .comma)
    (hs : Reading B mayGiveUp c .formals s₁.next as s') :
      Reading B mayGiveUp c .formals s (a :: as) s'
  | formal {s s' a} (h : Reading B mayGiveUp c .parameterTarget s a s') (hk : s'.kind ≠ .equal) :
    Reading B mayGiveUp c .formal s ⟨s'.spanFrom s.start, a, none, false⟩ s'
  | defaultFormal {s s₁ s' a default} (h : Reading B mayGiveUp c .parameterTarget s a s₁)
    (hk : s₁.kind = .equal) (hd : Reading B mayGiveUp c .assignment s₁.next.noteRich default s') :
    Reading B mayGiveUp c .formal s ⟨s'.spanFrom s.start, a, some default, false⟩ s'
  | parameterName {s s' a} (hk : s.atBindingName = true)
    (h : Parse.bindingName B .parameter c s = (.ok a, s')) :
    Reading B mayGiveUp c .parameterTarget s a s'
  | parameterPattern {s s' a} (hn : s.atBindingName = false) (hk : s.atBracket = true)
    (h : Reading B mayGiveUp c (.pattern .parameter) s.noteRich a s') :
    Reading B mayGiveUp c .parameterTarget s a s'
  | blockBody {s s₁ s₂ header outerIn statements scope} (hk : s.kind = .leftBrace)
    (h : Reading B mayGiveUp c (.body .rightBrace s.next.checkpoint) s.next statements s₁)
    (hf : Parse.finishFunction c s₁ = (.ok scope, s₂)) :
    Reading B mayGiveUp c (.functionBody header outerIn) s (.block statements, scope) s₂.next
  | expressionBody {s s₁ s' header outerIn a scope} (hk : s.kind ≠ .leftBrace)
    (ha : header.form = .arrow)
    (h : Reading B mayGiveUp c .assignment (s.allow outerIn) a s₁)
    (hf : Parse.finishFunction c (s₁.allow s.allowsIn) = (.ok scope, s')) :
    Reading B mayGiveUp c (.functionBody header outerIn) s (.expression a, scope) s'
  -- Patterns
  | pattern {s s' form a} (hn : s.nesting < maxNesting)
    (h : Reading B mayGiveUp c (.patternInside form) s.deeper a s') :
    Reading B mayGiveUp c (.pattern form) s a s'.shallower
  | arrayPattern {s s' form parts} (hk : s.kind = .leftBracket)
    (h : Reading B mayGiveUp c (.patternElements form) s.next parts s') (he : s'.kind =
      .rightBracket) :
    Reading B mayGiveUp c (.patternInside form) s
      (B.arrayPattern (s'.next.spanFrom s.start) parts.elements parts.rest) s'.next
  | objectPattern {s s' form properties} (hk : s.kind = .leftBrace)
    (h : Reading B mayGiveUp c (.patternProperties form) s.next properties s')
    (he : s'.kind = .rightBrace) :
    Reading B mayGiveUp c (.patternInside form) s
      (B.objectPattern (s'.next.spanFrom s.start) properties) s'.next
  | patternName {s s' form a} (hk : s.atBracket = false) (hf : form ≠ .assignment)
    (h : Parse.bindingName B form c s = (.ok a, s')) : Reading B mayGiveUp c
    (.patternInside form) s a s'
  | patternTarget {s s' a} (hk : s.atBracket = false)
    (h : Reading B mayGiveUp c .leftHandSide s a s')
    (ht : B.isTarget a = true) :
    Reading B mayGiveUp c (.patternInside .assignment) s (B.target a)
      (s'.awaitWrite (B.name? a) s.token.extent)
  | noPatternElements {s form} (hk : s.kind = .rightBracket) :
    Reading B mayGiveUp c (.patternElements form) s ⟨[], none⟩ s
  | patternHole {s s' form parts} (hk : s.kind = .comma)
    (h : Reading B mayGiveUp c (.patternElements form) s.next parts s') :
    Reading B mayGiveUp c (.patternElements form) s (parts.cons none) s'
  | patternRest {s s' form a} (hk : s.kind = .dotDotDot)
    (h : Reading B mayGiveUp c (.pattern form) s.next a s')
    (he : s'.kind = .rightBracket) : Reading B mayGiveUp c (.patternElements form) s ⟨[], some a⟩ s'
  | lastPatternElement {s s' form a} (hk : s.kind ∉ [.rightBracket, .comma, .dotDotDot])
    (h : Reading B mayGiveUp c (.patternElement form) s a s') (he : s'.kind = .rightBracket) :
    Reading B mayGiveUp c (.patternElements form) s ⟨[some a], none⟩ s'
  | morePatternElements {s s₁ s' form a parts} (hk : s.kind ∉ [.rightBracket, .comma, .dotDotDot])
    (h : Reading B mayGiveUp c (.patternElement form) s a s₁) (he : s₁.kind = .comma)
    (hs : Reading B mayGiveUp c (.patternElements form) s₁.next parts s') :
    Reading B mayGiveUp c (.patternElements form) s (parts.cons (some a)) s'
  | patternElement {s s₁ s' form target default}
    (h : Reading B mayGiveUp c (.pattern form) s target s₁)
    (hd : Reading B mayGiveUp c .patternDefault s₁ default s') :
    Reading B mayGiveUp c (.patternElement form) s ⟨s'.spanFrom s.start, target, default⟩ s'
  | noPatternDefault {s} (hk : s.kind ≠ .equal) : Reading B mayGiveUp c .patternDefault s none s
  | patternDefault {s s' a} (hk : s.kind = .equal)
    (h : Reading B mayGiveUp c .assignment (s.next.allow true) a s') :
    Reading B mayGiveUp c .patternDefault s (some a) (s'.allow s.allowsIn)
  | noPatternProperties {s form} (hk : s.kind = .rightBrace) :
    Reading B mayGiveUp c (.patternProperties form) s [] s
  | lastPatternProperty {s s' form a} (hk : s.kind ≠ .rightBrace)
    (h : Reading B mayGiveUp c (.patternProperty form) s a s') (hc : s'.kind ≠ .comma) :
    Reading B mayGiveUp c (.patternProperties form) s [a] s'
  | morePatternProperties {s s₁ s' form a as} (hk : s.kind ≠ .rightBrace)
    (h : Reading B mayGiveUp c (.patternProperty form) s a s₁) (hc : s₁.kind = .comma)
    (hs : Reading B mayGiveUp c (.patternProperties form) s₁.next as s') :
    Reading B mayGiveUp c (.patternProperties form) s (a :: as) s'
  | patternProperty {s s₁ s₂ s' form key name? target shorthand default}
    (hx : Reading B mayGiveUp c .patternKey s (key, name?) s₁)
    (ht : Reading B mayGiveUp c (.patternPropertyTarget form s name?) s₁ (target, shorthand) s₂)
    (hd : Reading B mayGiveUp c .patternDefault s₂ default s') :
    Reading B mayGiveUp c (.patternProperty form) s
      ⟨s'.spanFrom s.start, key, target, default, shorthand⟩ s'
  | plainPatternKey {s key} (hk : s.token.key? = some key) :
    Reading B mayGiveUp c .patternKey s
      (key, if s.atBindingName then some s.token.name else none) s.next
  | computedPatternKey {s s' a} (hk : s.kind = .leftBracket)
    (h : Reading B mayGiveUp c .assignment (s.next.allow true) a s') (he : s'.kind =
      .rightBracket) :
    Reading B mayGiveUp c .patternKey s (.computed a, none) (s'.allow s.allowsIn).next
  | propertyTarget {s s' form start name? a} (hk : s.kind = .colon)
    (h : Reading B mayGiveUp c (.pattern form) s.next a s') :
    Reading B mayGiveUp c (.patternPropertyTarget form start name?) s (a, false) s'
  | shorthandTarget {s s' form start name a} (hk : s.kind ≠ .colon)
    (h : Parse.bindName B form name start.start start.token.extent c s = (.ok a, s')) :
    Reading B mayGiveUp c (.patternPropertyTarget form start (some name)) s (a, true) s'

end EcmaFront
