import EcmaFront.Proofs.Laying

/-!
How an accepted program lies in its source. Every token up to the end belongs to exactly one of its
statements, and so it is inside blocks, bodies of functions and clauses; and what is inside a node
lies inside its span, with one exception.
-/

set_option autoImplicit false

namespace EcmaFront

/-- A program that was read from these tokens, which are all of its source. -/
structure Program.ReadFrom (p : Program) (source : Source) (ts : List Token) : Prop where
  /-- The lexer reads them up to the end. -/
  spells : (Lexer.ofSource source).Spells ts
  /-- None is an error. -/
  solid : ∀ t ∈ ts, t.kind.isSolid = true
  /-- A slash was read on as a regular expression only where the program has one. -/
  regexps : ∀ t ∈ ts, t.kind = .regexp → ∃ n, p.Contains n ∧ n.IsRegexp t
  shared : SharedOut ts p.body
  /-- The statements of blocks, bodies and clauses share out the tokens inside them. -/
  spelled : ∀ n, p.Contains n → n.Spelled ts

/-- A trail consumes nothing but tokens that the grammar has a use for. -/
theorem Sight.Trail.isSolid {x y : Sight} {ts : List Token} (h : x.Trail ts y) :
    ∀ t ∈ ts, t.kind.isSolid = true := by
  induction h with
  | nil => simp
  | next _ _ hk ih =>
    exact List.forall_mem_append.2
      ⟨ih, List.forall_mem_singleton.2 (TokenKind.isSolid_of_isPlain hk)⟩
  | regexp _ _ he ih =>
    have hk := congrArg TokenKind.isSolid (Lexer.kind_regexp he)
    exact List.forall_mem_append.2 ⟨ih, List.forall_mem_singleton.2 hk⟩
  | reread _ _ ih => exact ih
  | lookAhead _ _ ih => exact ih

theorem ParseState.ready_entered (source : Source) (options : ParseOptions) :
    (ParseState.entered source options).sight.Ready :=
  ⟨settled_lex _, Nat.le_trans (Nat.min_le_left _ _) (Nat.zero_le _)⟩

theorem ParseState.origin_entered (source : Source) (options : ParseOptions) :
    (ParseState.entered source options).sight.origin = Lexer.ofSource source :=
  Sight.origin_read (ParseState.initial source).sight (Lexer.ofSource source) options.startsStrict

theorem Sight.Ready.spells_nil {x : Sight} (h : x.Ready) (hk : x.token.kind = .eof) :
    x.origin.Spells [] :=
  .nil ((congrArg Token.kind h.settled.token).trans hk)

namespace Parse

variable {source : Source} {options : ParseOptions} {recording : Bool} {p : Program}
  {s' : ParseState}

theorem runProgram_stretch (h : runProgram .tree source options recording = (.ok p, s')) :
    ∃ ts y, (ParseState.entered source options).sight.Stretch false 0 ts (p.body.map .statement) y ∧
      SharedOut ts p.body ∧ y.token = s'.token ∧ s'.kind = .eof := by
  obtain ⟨span, body, scope, s, hr, hf, rfl⟩ := runProgram_read h
  obtain ⟨ts, hl, ho⟩ := hr.lays _ rfl .nil (ParseState.ready_entered source options)
  have hp := (onlyScopes_finishFunction hf).spot
  simp only [ParseState.spot, Prod.mk.injEq] at hp
  exact ⟨ts, s.sight, hl, ho, hp.2.1.symm, (congrArg Token.kind hp.2.1).trans hr.closes⟩

theorem laid_of_contains {x y : Sight} {ts : List Token} {n : Node}
    (h : x.Stretch false 0 ts (p.body.map .statement) y) (hn : p.Contains n) : n.Laid ts := by
  obtain ⟨a, ha, hn⟩ := hn
  exact h.laid _ (List.mem_map_of_mem ha) n hn

/-- A parse that accepts a program ends at the end of the source. The tokens that it consumed on the
way are all that the lexer reads there, none of them an error. Each lies in exactly one statement of
the program, and these stand in the order of the text; and the same is true of the statements of
every block, body of a function and clause and the tokens between its delimiters. -/
theorem tokens_shared_out (h : runProgram .tree source options recording = (.ok p, s')) :
    s'.kind = .eof ∧ ∃ ts y, (ParseState.entered source options).sight.Trail ts y ∧
    y.token = s'.token ∧
      p.ReadFrom source ts := by
  obtain ⟨ts, y, hl, ho, ht, hk⟩ := runProgram_stretch h
  have hr := (hl.trail.passes (ParseState.ready_entered source options)).ready
  have hs : (ParseState.entered source options).sight.origin.Spells (ts ++ []) :=
    hl.trail.spells (ParseState.ready_entered source options)
      (hr.spells_nil ((congrArg Token.kind ht).trans hk))
  rw [List.append_nil, ParseState.origin_entered] at hs
  have hx : ∀ t ∈ ts, t.kind = .regexp → ∃ n, p.Contains n ∧ n.IsRegexp t := fun t hm hx => by
    obtain ⟨_, hn, m, hm, hi⟩ := hl.regexps t hm hx
    obtain ⟨a, ha, rfl⟩ := List.mem_map.1 hn
    exact ⟨m, ⟨a, ha, hm⟩, hi⟩
  exact ⟨hk, ts, y, hl.trail, ht, hs, hl.trail.isSolid, hx, ho,
    fun n hn => (laid_of_contains hl hn).spelled⟩

theorem tokens_shared_out_around_regexps :
    let source := Source.ofString "if(a)/{}/.b\n{switch(c){case 1:d};}function f(){g}" ""
    ∃ p s' ts, runProgram .tree source {} false = (.ok p, s') ∧ s'.kind = .eof ∧
    p.ReadFrom source ts := by
  intro source
  have h : (runProgram .tree source {} false).1.isOk = true := by decide +kernel
  cases ho : runProgram .tree source {} false with
  | mk outcome s' =>
    rw [ho] at h
    cases outcome with
    | ok p =>
      obtain ⟨hk, ts, -, -, -, hr⟩ := tokens_shared_out ho
      exact ⟨p, s', ts, rfl, hk, hr⟩
    | error e => simp [Except.isOk, Except.toBool] at h

/-- Every node of an accepted program takes up some of the text. What is inside it ends before it
ends, and begins behind its beginning, except that a member of an object that was made by `new` may
begin anywhere in that object. -/
theorem nodes_nest {n : Node} (h : (parseProgram source options).outcome = .ok p)
    (hn : p.Contains n) :
    n.span.start.offset < n.span.stop.offset ∧
      ∀ m ∈ n.children, m.span.stop.offset ≤ n.span.stop.offset ∧
        (n.span.start.offset ≤ m.span.start.offset ∨ n.IsMemberOfNew m) := by
  obtain ⟨ts, y, hl, -⟩ := runProgram_stretch (Prod.ext h rfl)
  have hl := laid_of_contains hl hn
  exact ⟨hl.nonempty, fun m hm => ⟨hl.stop m hm, hl.start m hm⟩⟩

theorem nodes_nest_behind_new :
    ∃ p a, (parseProgram (.ofString "new new a().b" "") {}).outcome = .ok p ∧
      p.Contains (.statement a) ∧ a.span.start.offset < a.span.stop.offset ∧
      ∀ m ∈ a.nodes, m.span.stop.offset ≤ a.span.stop.offset ∧
        (a.span.start.offset ≤ m.span.start.offset ∨ (Node.statement a).IsMemberOfNew m) := by
  have h : (parseProgram (.ofString "new new a().b" "") {}).outcome.toOption.any
      (·.body.length == 1) = true := by
    decide +kernel
  cases ho : (parseProgram (.ofString "new new a().b" "") {}).outcome with
  | ok p =>
    rw [ho] at h
    obtain ⟨a, ha⟩ := List.length_eq_one_iff.1 (beq_iff_eq.1 h)
    have hn : p.Contains (.statement a) := ⟨a, by simp [ha], .refl _⟩
    exact ⟨p, a, rfl, hn, nodes_nest ho hn⟩
  | error e => simp [ho, Except.toOption] at h

end Parse

end EcmaFront
