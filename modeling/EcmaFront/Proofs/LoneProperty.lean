import EcmaFront.Proofs.Consumption
import EcmaFront.Proofs.PropertyClash
import EcmaFront.Proofs.ReadStatement

/-!
What the properties of an object literal come to, told by what each of them is on its own. Whether a
property is accepted depends on those before it only as far as one of them excludes it.
-/

set_option autoImplicit false

namespace EcmaFront

namespace Parse

/-- The names of no property, before the first accessor or behind it. -/
def noNames (isData : Bool) : PropertyNames := if isData then .none else .uses []

/-- A property and the token it begins with. -/
structure PlacedProperty where
  property : Property
  extent : Extent

/-- One property on its own: no other name is known, only whether there was an accessor. -/
def loneRound (r : Rules .tree) (found : List PlacedProperty × Bool) :
    Parse (Round (List PlacedProperty × Bool) (List PlacedProperty)) := do
  let s ← state
  if s.kind == .rightBrace then pure (.done found.1.reverse)
  else
    let scan ← property r ⟨[], noNames found.2, false⟩
    let found := (scan.properties.map (⟨·, s.token.extent⟩) ++ found.1, scan.names.isData)
    if ← consume .comma then pure (.again found) else pure (.done found.1.reverse)

/-- The properties of an object literal, each on its own. -/
def loneProperties (r : Rules .tree) : Parse (List PlacedProperty) :=
  repeatFrom ([], true) (loneRound r)

end Parse

def PropertyEntry.ofProperty : Property → PropertyEntry Expr
  | .entry _ key kind _ => .entry key kind
  | .spread _ _ => .spread

def Parse.PlacedProperty.entry (x : Parse.PlacedProperty) : PropertyEntry Expr :=
  .ofProperty x.property

namespace Parse

variable {c : ParseContext} {r : Rules .tree} {s s' t : ParseState}
  {scan scan' : ObjectScan Property}

theorem settle_error {α : Type} {extent : Extent} {cause : Cause} :
    (settle (.error cause : Except Cause α) extent c s).1 =
    .error (.atExtent cause c.source.url extent) := rfl

/-- How a property goes on where others came before it, if it goes on to `s'` where none did: in the
same way, unless they exclude it. -/
structure Alone (parse : ObjectScan Property → Parse (ObjectScan Property)) (c : ParseContext)
    (s : ParseState) (extent : Extent) (names names' : PropertyNames) (p : Property)
    (s' : ParseState) : Prop where
  alone : ∃ prototype, (PropertyEntry.ofProperty p).add names false = .ok (names', prototype)
  ok : ∀ scan, scan.names.isData = names.isData → ∀ names prototype,
    (PropertyEntry.ofProperty p).add scan.names scan.prototype = .ok (names, prototype) →
    parse scan c s = (.ok ⟨p :: scan.properties, names, prototype⟩, s')
  error : ∀ scan, scan.names.isData = names.isData → ∀ cause,
    (PropertyEntry.ofProperty p).add scan.names scan.prototype = .error cause →
    (parse scan c s).1 = .error (.atExtent cause c.source.url extent)

theorem accessorProperty_alone {kind : PropertyKind} {names : PropertyNames}
    (hk : kind = .getter ∨ kind = .setter)
    (h : accessorProperty r kind ⟨[], names, false⟩ c s = (.ok scan, s')) :
    ∃ p, scan.properties = [p] ∧
    Alone (accessorProperty r kind) c s s.token.extent names scan.names p s' := by
  have hadd (key : PropertyKey Expr) (names : PropertyNames) (prototype : Bool) :
      (PropertyEntry.entry key kind).add names prototype =
      (names.addAccessorKey key kind).map (·, prototype) :=
    if_pos (PropertyEntry.isAccessor_of_isKind (e := .entry key kind) (beq_self_eq_true kind) hk)
  simp [accessorProperty] at h
  obtain ⟨key, s₁, hx, names', hn, a, hf, rfl⟩ := h
  have hkey {scan : ObjectScan Property} (hd : scan.names.isData = names.isData) :
      propertyKey r c (s.noteAccessor scan.names).next = (.ok key, s₁) := by
    rw [← hx]
    simp only [ParseState.noteAccessor, hd]
  refine ⟨_, rfl, ⟨false, ?_⟩, fun scan hd names₁ prototype ha => ?_, fun scan hd cause ha => ?_⟩
  · simp only [PropertyEntry.ofProperty, hadd, hn, Except.map]
  all_goals
    simp only [PropertyEntry.ofProperty, hadd] at ha
    cases hx' : scan.names.addAccessorKey key kind
    all_goals
      rw [hx'] at ha
      cases ha
    rw [accessorProperty, state_bind, bind_run (noteAccessor_run _), next_bind,
      bind_run (hkey hd), hx']
  · rw [bind_run (settle_ok.2 ⟨rfl, rfl⟩), bind_run hf, spanFrom_bind, pure_run]
  · exact bind_error settle_error

theorem propertyValue_alone {start : ParseState} {key : PropertyKey Expr} {kind : PropertyKind}
    {value : Expr} {sets : Bool}
    (h : propertyValue r start key false c s = (.ok (kind, value, sets), s')) :
    (PropertyEntry.entry key kind).isAccessor = false ∧
    (PropertyEntry.entry key kind).setsPrototype = sets ∧
      (∀ prototype, (sets && prototype) = false →
        propertyValue r start key prototype c s = (.ok (kind, value, prototype || sets), s')) ∧
      ∀ prototype, (sets && prototype) = true → (propertyValue r start key prototype c s).1 =
        .error (.atExtent .repeatedPrototype c.source.url start.token.extent) := by
  simp only [propertyValue, state_bind] at h
  replace h : Yields _ c _ _ := h
  split at h
  · next hk =>
    simp only [Yields, next_bind, bind_ok] at h
    obtain ⟨value', s₁, hv, h⟩ := h
    have hrun (prototype : Bool) : propertyValue r start key prototype c s =
        (if namesPrototype key then
          if prototype then failAt .repeatedPrototype start.token.extent
            else pure (.value, value', true)
        else pure (.value, value', prototype) : Parse (PropertyKind × Expr × Bool)) c s₁ := by
      simp only [propertyValue, state_bind, hk, next_bind]
      exact bind_run hv
    by_cases hn : namesPrototype key = true
    · simp [hn] at h
      obtain ⟨⟨rfl, rfl, rfl⟩, rfl⟩ := h
      refine ⟨rfl, hn, fun prototype hp => ?_, fun prototype hp => ?_⟩
      · rw [Bool.true_and] at hp
        rw [hrun, if_pos hn, hp, if_neg Bool.false_ne_true, pure_run, Bool.or_true]
      · rw [Bool.true_and] at hp
        rw [hrun, if_pos hn, hp, if_pos rfl]
        rfl
    · simp [hn] at h
      obtain ⟨⟨rfl, rfl, rfl⟩, rfl⟩ := h
      refine ⟨rfl, Bool.eq_false_iff.2 hn, fun prototype _ => ?_,
        fun prototype hp => absurd hp Bool.false_ne_true⟩
      rw [hrun, if_neg hn, pure_run, Bool.or_false]
  · next hk =>
    simp only [Yields, bind_ok, pure_ok, Prod.mk.injEq] at h
    obtain ⟨value', s₁, hv, ⟨rfl, rfl, rfl⟩, rfl⟩ := h
    refine ⟨rfl, rfl, fun prototype _ => ?_, fun prototype hp => absurd hp Bool.false_ne_true⟩
    simp only [propertyValue, state_bind, hk, Bool.or_false]
    exact bind_run hv
  · next hk =>
    simp [Yields] at h
    obtain ⟨_, ⟨hi, hk⟩, ⟨rfl, rfl, rfl⟩, rfl⟩ := h
    refine ⟨rfl, rfl, fun prototype _ => ?_, fun prototype hp => absurd hp Bool.false_ne_true⟩
    obtain hk | hk := hk <;> simp [propertyValue, hk, hi]

theorem dataProperty_alone {names : PropertyNames}
    (h : dataProperty r ⟨[], names, false⟩ c s = (.ok scan, s')) :
    ∃ p, scan.properties = [p] ∧
    Alone (dataProperty r) c s s.token.extent names scan.names p s' := by
  simp only [dataProperty, state_bind, bind_ok, settle_ok, spanFrom_bind, pure_ok] at h
  obtain ⟨key, s₁, hx, ⟨kind, value, sets⟩, s₂, hv, names', _, ⟨hn, rfl⟩, rfl, rfl⟩ := h
  obtain ⟨hacc, hsets, hok, herror⟩ := propertyValue_alone hv
  have hadd (names : PropertyNames) (prototype : Bool) :
      (PropertyEntry.entry key kind).add names prototype =
      if sets && prototype then .error .repeatedPrototype
        else (names.addDataKey key).map (·, prototype || sets) := by
    rw [← hsets, PropertyEntry.add, if_neg (Bool.eq_false_iff.1 hacc)]
  refine ⟨_, rfl, ⟨sets, by simp [PropertyEntry.ofProperty, hadd, hn, Except.map]⟩,
    fun scan _ names₁ prototype ha => ?_,
    fun scan _ cause ha => ?_⟩
  all_goals
    simp only [PropertyEntry.ofProperty, hadd] at ha
    rw [dataProperty, state_bind, bind_run hx]
    cases hp : sets && scan.prototype
  · rw [hp, if_neg Bool.false_ne_true] at ha
    cases hn' : scan.names.addDataKey key
    all_goals
      rw [hn'] at ha
      cases ha
    rw [bind_run (hok _ hp)]
    dsimp only
    rw [bind_run (settle_ok.2 ⟨rfl, rfl⟩), spanFrom_bind, pure_run]
  · rw [hp, if_pos rfl] at ha
    cases ha
  · rw [hp, if_neg Bool.false_ne_true] at ha
    cases hn' : scan.names.addDataKey key
    all_goals
      rw [hn'] at ha
      cases ha
    rw [bind_run (hok _ hp)]
    exact bind_error settle_error
  · rw [hp, if_pos rfl] at ha
    cases ha
    exact bind_error (herror _ hp)

theorem accessor?_kind {kind : PropertyKind} (h : accessor? c s = (.ok (some kind), s')) :
    kind = .getter ∨ kind = .setter := by
  rw [accessor?, state_bind] at h
  replace h : Yields _ c s _ := h
  split at h
  · cases h
  next kind' hk' =>
  have hkind : kind' = .getter ∨ kind' = .setter := by
    split at hk'
    · exact .inl (Option.some.inj hk').symm
    · split at hk'
      · exact .inr (Option.some.inj hk').symm
      · cases hk'
  rw [peekKind, Yields, ask_bind] at h
  replace h : Yields _ c _ _ := h
  split at h
  all_goals cases h
  exact hkind

theorem accessor?_token {found : Option PropertyKind} (hs : s.sight.Settled)
    (h : accessor? c s = (.ok found, s')) : s'.token = s.token := by
  by_cases hk : s.kind = .eof
  · have hw (word : String) : s.atWord word = false := by simp [ParseState.atWord, hk]
    simp [accessor?, hw] at h
    rw [h.2]
  · exact ((accessor?_glances h).again.token hs hk).1

theorem spreadProperty_alone {start : Position} {extent : Extent} {names : PropertyNames}
    (h : spreadProperty r ⟨[], names, false⟩ start c s = (.ok scan, s')) :
    ∃ p, scan.properties = [p] ∧
    Alone (spreadProperty r · start) c s extent names scan.names p s' := by
  simp [spreadProperty] at h
  obtain ⟨a, ha, rfl⟩ := h
  refine ⟨_, rfl, ⟨false, rfl⟩, fun scan _ names₁ prototype hadd => ?_, fun scan _ cause hadd => ?_⟩
  · cases hadd
    rw [spreadProperty, bind_run ha, spanFrom_bind, pure_run]
  · cases hadd

theorem property_alone {names : PropertyNames} (hs : s.sight.Settled)
    (h : property r ⟨[], names, false⟩ c s = (.ok scan, s')) :
    ∃ p, scan.properties = [p] ∧ Alone (property r) c s s.token.extent names scan.names p s' := by
  simp [property] at h
  obtain ⟨hk, h⟩ | ⟨hk, kind?, s₁, ha, h⟩ := h
  · obtain ⟨p, hp, hadd, hok, herror⟩ := spreadProperty_alone h
    have hrun (scan : ObjectScan Property) : property r scan c s =
        spreadProperty r scan s.start c s.next := by
      simp [property, hk]
    exact ⟨p, hp, hadd, fun scan => hrun scan ▸ hok scan, fun scan => hrun scan ▸ herror scan⟩
  · have ht := accessor?_token hs ha
    cases kind? with
    | some kind =>
      have hrun (scan : ObjectScan Property) : property r scan c s =
          accessorProperty r kind scan c s₁ := by
        simp only [property, state_bind, consume_bind, if_neg hk, Bool.false_eq_true, if_false]
        exact bind_run ha
      obtain ⟨p, hp, hadd, hok, herror⟩ := accessorProperty_alone (accessor?_kind ha) h
      exact ⟨p, hp, hadd, fun scan => hrun scan ▸ hok scan,
        fun scan => hrun scan ▸ ht ▸ herror scan⟩
    | none =>
      have hrun (scan : ObjectScan Property) : property r scan c s = dataProperty r scan c s₁ := by
        simp only [property, state_bind, consume_bind, if_neg hk, Bool.false_eq_true, if_false]
        exact bind_run ha
      obtain ⟨p, hp, hadd, hok, herror⟩ := dataProperty_alone h
      exact ⟨p, hp, hadd, fun scan => hrun scan ▸ hok scan,
        fun scan => hrun scan ▸ ht ▸ herror scan⟩

/-- What was found of each property on its own, and of all of them together. -/
structure Follows (found : List PlacedProperty × Bool) (scan : ObjectScan Property) : Prop where
  properties : scan.properties = found.1.map (·.property)
  recorded : PropertyEntry.Recorded scan.names (found.1.reverse.map (·.entry))
  prototype : scan.prototype = (found.1.reverse.map (·.entry)).any (·.setsPrototype)
  isData : scan.names.isData = found.2
  compatible : PropertyEntry.Compatible (found.1.reverse.map (·.entry))

theorem follows_none : Follows ([], true) ⟨[], .none, false⟩ :=
  ⟨rfl, PropertyEntry.recorded_none, rfl, rfl, by rintro i cause ⟨j, hj, a, b, ha, -⟩; cases ha⟩

theorem recorded_noNames (isData : Bool) :
    PropertyEntry.Recorded (noNames isData) ([] : List (PropertyEntry Expr)) := by
  cases isData <;> exact fun _ => rfl

theorem isData_noNames (isData : Bool) : (noNames isData).isData = isData := by
  cases isData <;> rfl

theorem Follows.property {found : List PlacedProperty × Bool} (h : Follows found scan)
    {p : Property} {extent : Extent} {names : PropertyNames}
    (ha : Alone (Parse.property r) c s extent (noNames found.2) names p s') :
    (∃ scan', Parse.property r scan c s = (.ok scan', s') ∧
      Follows (⟨p, extent⟩ :: found.1, names.isData) scan') ∨
    ∃ cause, (Parse.property r scan c s).1 = .error (.atExtent cause c.source.url extent) ∧
      ∃ a ∈ found.1.reverse.map (·.entry), PropertyEntry.Excludes a (.ofProperty p) cause := by
  have hd : scan.names.isData = (noNames found.2).isData := h.isData.trans (isData_noNames _).symm
  obtain ⟨sets, halone⟩ := ha.alone
  have hn := (PropertyEntry.add_ok (recorded_noNames _) halone).2.2.1
  cases hx : (PropertyEntry.ofProperty p).add scan.names scan.prototype with
  | ok taken =>
    obtain ⟨hrec, hp, hdata, hnone⟩ := PropertyEntry.add_ok h.recorded (h.prototype ▸ hx)
    have he : (⟨p, extent⟩ :: found.1).reverse.map (·.entry) =
        found.1.reverse.map (·.entry) ++ [PropertyEntry.ofProperty p] := by
      simp [PlacedProperty.entry]
    refine .inl ⟨_, ha.ok scan hd _ _ hx, ?_, he ▸ hrec, he ▸ hp, ?_,
      he ▸ h.compatible.concat hnone⟩
    · rw [h.properties]
      rfl
    · rw [hdata, hn, isData_noNames, h.isData]
  | error cause =>
    exact .inr ⟨cause, ha.error scan hd _ hx, PropertyEntry.add_error h.recorded (h.prototype ▸ hx)⟩

theorem loneRound_ok (hr : Reads c r) (hs : s.sight.Settled) {found : List PlacedProperty × Bool}
    {round : Round (List PlacedProperty × Bool) (List PlacedProperty)}
    (h : loneRound r found c s = (.ok round, t)) :
    (s.kind = .rightBrace ∧ round = .done found.1.reverse ∧ t = s) ∨
    s.kind ≠ .rightBrace ∧ ∃ p names s₁,
    Alone (property r) c s s.token.extent (noNames found.2) names p s₁ ∧
      (s₁.kind = .comma ∧ round = .again (⟨p, s.token.extent⟩ :: found.1, names.isData) ∧
        t = s₁.next ∧
          t.sight.Settled ∨
        s₁.kind ≠ .comma ∧ round = .done (⟨p, s.token.extent⟩ :: found.1).reverse ∧ t = s₁) := by
  simp only [loneRound, state_bind, ite_ok, beq_iff_eq, pure_ok, bind_ok, consume_bind, ite_eq_run,
    if_true, Bool.false_eq_true, if_false] at h
  obtain ⟨hk, rfl, rfl⟩ | ⟨hk, scan, s₁, hp, h⟩ := h
  · exact .inl ⟨hk, rfl, rfl⟩
  obtain ⟨p, hscan, ha⟩ := property_alone hs hp
  obtain ⟨_, -, hread⟩ := property_read hr hp
  have hm : (Walk.bare c).Leads s _ s₁ := hread.bare
  refine .inr ⟨hk, p, _, s₁, ha, ?_⟩
  simp only [hscan] at h
  obtain ⟨hc, rfl, rfl⟩ | ⟨hc, rfl, rfl⟩ := h
  · exact .inl ⟨hc, rfl, rfl, hs.moves (hm.moves.trans (.next s₁))⟩
  · exact .inr ⟨hc, rfl, rfl⟩

theorem loneRounds_append (hr : Reads c r) {n : Nat} {found : List PlacedProperty × Bool}
    {xs : List PlacedProperty} (hs : s.sight.Settled)
    (h : repeatBounded n (loneRound r) found c s = (.ok xs, s')) :
    ∃ rest, xs = found.1.reverse ++ rest := by
  induction n generalizing found s with
  | zero => simp [repeatBounded] at h
  | succ n ih =>
    rw [repeatBounded, bind_ok] at h
    obtain ⟨round, t, hround, h⟩ := h
    obtain ⟨-, rfl, rfl⟩ | ⟨-, p, names, s₁, -, ⟨-, rfl, rfl, hs'⟩ | ⟨-, rfl, rfl⟩⟩ :=
      loneRound_ok hr hs hround
    · exact ⟨[], by rw [List.append_nil, (pure_ok.1 h).1]⟩
    · obtain ⟨rest, rfl⟩ := ih hs' h
      exact ⟨_ :: rest, by rw [List.reverse_cons, List.append_assoc, List.singleton_append]⟩
    · exact ⟨_, by rw [(pure_ok.1 h).1, List.reverse_cons]⟩

/-- What the properties come to together, told by what each of them is on its own. -/
def ComesTo (c : ParseContext) (xs : List PlacedProperty) (s' : ParseState)
    (result : Except ParseError (List Property) × ParseState) : Prop :=
  PropertyEntry.Compatible (xs.map (·.entry)) ∧ result = (.ok (xs.map (·.property)), s') ∨
  ∃ i cause x, PropertyEntry.CompletesFirst (xs.map (·.entry)) i cause ∧ xs[i]? = some x ∧
    result.1 = .error (.atExtent cause c.source.url x.extent)

theorem propertyRounds_comeTo (hr : Reads c r) {n : Nat} {found : List PlacedProperty × Bool}
    {xs : List PlacedProperty} (hf : Follows found scan) (hs : s.sight.Settled)
    (h : repeatBounded n (loneRound r) found c s = (.ok xs, s')) :
    ComesTo c xs s' (repeatBounded n (propertyRound r) scan c s) := by
  induction n generalizing found scan s with
  | zero => simp [repeatBounded] at h
  | succ n ih =>
    rw [repeatBounded, bind_ok] at h
    obtain ⟨round, t, hround, h⟩ := h
    obtain ⟨hk, rfl, rfl⟩ | ⟨hk, p, names, s₁, ha, hend⟩ := loneRound_ok hr hs hround
    · obtain ⟨rfl, rfl⟩ := pure_ok.1 h
      have hrun : propertyRound r scan c s' = (.ok (.done scan.properties.reverse), s') := by
        simp [propertyRound, hk]
      refine .inl ⟨hf.compatible, ?_⟩
      rw [repeatBounded_done hrun, hf.properties, List.map_reverse]
    have hrun (scan : ObjectScan Property) : propertyRound r scan c s =
        (property r scan >>= fun scan => do
        if ← consume .comma then pure (.again scan)
          else pure (.done scan.properties.reverse)) c s := by
      simp only [propertyRound, state_bind, beq_iff_eq, if_neg hk]
    obtain ⟨scan', hp, hf'⟩ | ⟨cause, herror, a, ham, hx⟩ := hf.property ha
    · obtain ⟨hc, rfl, rfl, hs'⟩ | ⟨hc, rfl, rfl⟩ := hend
      · have hround' : propertyRound r scan c s = (.ok (.again scan'), s₁.next) := by
          rw [hrun, bind_run hp, consume_bind, if_pos hc, if_pos rfl, pure_run]
        rw [repeatBounded_again hround']
        exact ih hf' hs' h
      · obtain ⟨rfl, rfl⟩ := pure_ok.1 h
        have hround' : propertyRound r scan c s = (.ok (.done scan'.properties.reverse), s') := by
          rw [hrun, bind_run hp, consume_bind, if_neg hc, if_neg Bool.false_ne_true, pure_run]
        refine .inl ⟨hf'.compatible, ?_⟩
        rw [repeatBounded_done hround', hf'.properties, List.map_reverse]
    · obtain ⟨rest, rfl⟩ : ∃ rest, xs = found.1.reverse ++ ⟨p, s.token.extent⟩ :: rest := by
        obtain ⟨hc, rfl, rfl, hs'⟩ | ⟨hc, rfl, rfl⟩ := hend
        · obtain ⟨rest, rfl⟩ := loneRounds_append hr hs' h
          exact ⟨rest, by rw [List.reverse_cons, List.append_assoc, List.singleton_append]⟩
        · exact ⟨[], by rw [(pure_ok.1 h).1, List.reverse_cons]⟩
      refine .inr ⟨found.1.reverse.length, cause, ⟨p, s.token.extent⟩, ?_, ?_, ?_⟩
      · have hc : PropertyEntry.CompletesFirst (found.1.reverse.map (·.entry) ++ .ofProperty p ::
            rest.map (·.entry))
            (found.1.reverse.map (·.entry)).length cause := hf.compatible.completesFirst ham hx
        rw [List.length_map] at hc
        rw [List.map_append, List.map_cons]
        exact hc
      · rw [List.getElem?_append_right (Nat.le_refl _), Nat.sub_self, List.getElem?_cons_zero]
      · rw [repeatBounded]
        exact bind_error (hrun scan ▸ bind_error herror)

/-- Properties that each parse on their own are accepted together unless one of them is excluded by
one before it: one of them is a getter or a setter and the other one is a value, a shorthand or a
method of that name, or both are getters or both are setters of that name, or both give the
prototype a value. The first property that is excluded is rejected at its first token, and for that
reason. When the first accessor came makes no difference. -/
theorem duplicates_are_found (hr : Reads c r) (hs : s.sight.Settled) {xs : List PlacedProperty}
    (h : loneProperties r c s = (.ok xs, s')) :
    (repeatFrom ⟨[], .none, false⟩ (propertyRound r) c s = (.ok (xs.map (·.property)), s') ↔
      ∀ i cause, ¬ PropertyEntry.Completes (xs.map (·.entry)) i cause) ∧
    ∀ e, (repeatFrom ⟨[], .none, false⟩ (propertyRound r) c s).1 = .error e ↔
      ∃ i cause x, PropertyEntry.CompletesFirst (xs.map (·.entry)) i cause ∧ xs[i]? = some x ∧
        e = .atExtent cause c.source.url x.extent := by
  obtain ⟨hc, hrun⟩ | ⟨i, cause, x, hc, hx, hrun⟩ := propertyRounds_comeTo hr follows_none hs h
  · refine ⟨iff_of_true hrun hc, fun e => iff_of_false ?_ ?_⟩
    · intro he
      rw [repeatFrom, hrun] at he
      cases he
    · rintro ⟨i, cause, -, hc', -⟩
      exact hc i cause hc'.1
  · refine ⟨iff_of_false ?_ fun hc' => hc' i cause hc.1, fun e => ?_⟩
    · intro hrun'
      rw [repeatFrom] at hrun'
      rw [hrun'] at hrun
      cases hrun
    · rw [repeatFrom, hrun, Except.error.injEq]
      constructor
      · rintro rfl
        exact ⟨i, cause, x, hc, hx, rfl⟩
      · rintro ⟨i', cause', x', hc', hx', rfl⟩
        obtain ⟨rfl, rfl⟩ := hc.unique hc'
        rw [Option.some.inj (hx.symm.trans hx')]

theorem settled_firstProperty (source : Source) (options : ParseOptions) :
    (ParseState.entered source options).next.sight.Settled :=
  (ParseState.settled_entered source options).moves (ParseState.Moves.next _)

/-- The accessors inside the values do not meet the name in front of them, but the one behind them
does. -/
theorem duplicates_are_found_behind_nested_literals :
    let source := Source.ofString "{a:1,...{get a(){}},b:{get a(){}},get a(){}}" ""
    let c : ParseContext := ⟨source, roundsFor source.size, false⟩
    let r := Rules.ofSource .tree source
    let s := (ParseState.entered source {}).next
    Reads c r ∧ s.sight.Settled ∧ ∃ xs s', loneProperties r c s = (.ok xs, s') ∧
      ∃ i cause x, PropertyEntry.CompletesFirst (xs.map (·.entry)) i cause ∧ xs[i]? = some x ∧
        ParseError.atExtent (.dataAndAccessor "a") c.source.url ⟨1, 0, 34, 37⟩ =
        .atExtent cause c.source.url x.extent := by
  intro source c r s
  have hr : Reads c r := bounded_reads _ _ _
  have hs : s.sight.Settled := settled_firstProperty source {}
  have hlone : (loneProperties r c s).1.isOk = true := by decide +kernel
  have hrun : (repeatFrom ⟨[], .none, false⟩ (propertyRound r) c s).1.map (fun _ => ()) =
      .error (.atExtent (.dataAndAccessor "a") c.source.url ⟨1, 0, 34, 37⟩) := by decide +kernel
  clear_value s r
  rcases h : loneProperties r c s with ⟨e | xs, s'⟩
  · rw [h] at hlone
    cases hlone
  refine ⟨hr, hs, xs, s', rfl, ((duplicates_are_found hr hs h).2 _).1 ?_⟩
  cases he : (repeatFrom ⟨[], .none, false⟩ (propertyRound r) c s).1 with
  | error e =>
    rw [he] at hrun
    exact congrArg _ (Except.error.inj hrun)
  | ok a =>
    rw [he] at hrun
    cases hrun

end Parse

end EcmaFront
