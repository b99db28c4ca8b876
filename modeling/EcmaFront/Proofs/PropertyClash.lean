import EcmaFront.Grammar.ObjectLiteral
import Mathlib.Data.List.Basic

/-!
Which properties of an object literal exclude each other. The parser keeps the names it has met,
first only those of data properties and from the first accessor on how each name was used. That is
enough to find a property that is excluded by any property before it, and no other one.
-/

set_option autoImplicit false

namespace EcmaFront

/-- A property of an object literal, as far as others can exclude it. -/
inductive PropertyEntry (E : Type) where
  | spread
  | entry (key : PropertyKey E) (kind : PropertyKind)

namespace PropertyEntry

variable {E : Type}

/-- A spread has no name, and neither has a key that is computed. -/
def name? : PropertyEntry E → Option String
  | .spread => none
  | .entry key _ => key.name?

def isKind (kind : PropertyKind) : PropertyEntry E → Bool
  | .spread => false
  | .entry _ kind' => kind' == kind

def isAccessor (e : PropertyEntry E) : Bool := e.isKind .getter || e.isKind .setter

def isData (e : PropertyEntry E) : Bool :=
  e.isKind .value || e.isKind .shorthand || e.isKind .method

/-- A key and a value, where the key names the prototype. -/
def setsPrototype : PropertyEntry E → Bool
  | .spread => false
  | .entry key kind => kind == .value && Parse.namesPrototype key

/-- Two properties exclude each other, whichever comes first. -/
inductive Excludes (a b : PropertyEntry E) : Cause → Prop where
  | dataAndAccessor {name : String} (ha : a.name? = some name) (hb : b.name? = some name)
    (hk : a.isData = true ∧ b.isAccessor = true ∨ a.isAccessor = true ∧ b.isData = true) :
    Excludes a b (.dataAndAccessor name)
  | repeatedAccessor {name : String} (ha : a.name? = some name) (hb : b.name? = some name)
    (hk : a.isKind .getter = true ∧ b.isKind .getter = true ∨
      a.isKind .setter = true ∧ b.isKind .setter = true) :
    Excludes a b (.repeatedAccessor name)
  | repeatedPrototype (ha : a.setsPrototype = true) (hb : b.setsPrototype = true) :
    Excludes a b .repeatedPrototype

def Completes (es : List (PropertyEntry E)) (i : Nat) (cause : Cause) : Prop :=
  ∃ j < i, ∃ a b, es[j]? = some a ∧ es[i]? = some b ∧ Excludes a b cause

def CompletesFirst (es : List (PropertyEntry E)) (i : Nat) (cause : Cause) : Prop :=
  Completes es i cause ∧ ∀ k < i, ∀ cause', ¬ Completes es k cause'

def Compatible (es : List (PropertyEntry E)) : Prop := ∀ i cause, ¬ Completes es i cause

theorem completes_append {es rest : List (PropertyEntry E)} {i : Nat} {cause : Cause}
    (hi : i < es.length) :
    Completes (es ++ rest) i cause ↔ Completes es i cause := by
  refine exists_congr fun j => and_congr_right fun hj => ?_
  rw [List.getElem?_append_left hi, List.getElem?_append_left (Nat.lt_trans hj hi)]

theorem completes_length {es rest : List (PropertyEntry E)} {e : PropertyEntry E} {cause : Cause} :
    Completes (es ++ e :: rest) es.length cause ↔ ∃ a ∈ es, Excludes a e cause := by
  constructor
  · rintro ⟨j, hj, a, b, ha, hb, hc⟩
    rw [List.getElem?_append_left hj] at ha
    rw [List.getElem?_append_right (Nat.le_refl _), Nat.sub_self, List.getElem?_cons_zero] at hb
    obtain rfl := Option.some.inj hb
    exact ⟨a, List.mem_of_getElem? ha, hc⟩
  · rintro ⟨a, ha, hc⟩
    obtain ⟨j, hj⟩ := List.mem_iff_getElem?.1 ha
    obtain ⟨hl, -⟩ := List.getElem?_eq_some_iff.1 hj
    refine ⟨j, hl, a, e, by rw [List.getElem?_append_left hl, hj], ?_, hc⟩
    rw [List.getElem?_append_right (Nat.le_refl _), Nat.sub_self, List.getElem?_cons_zero]

theorem Completes.lt_length {es : List (PropertyEntry E)} {i : Nat} {cause : Cause}
    (h : Completes es i cause) :
    i < es.length := by
  obtain ⟨j, hj, a, b, ha, hb, hc⟩ := h
  exact (List.getElem?_eq_some_iff.1 hb).1

theorem Compatible.concat {es : List (PropertyEntry E)} {e : PropertyEntry E} (h : Compatible es)
    (he : ∀ a ∈ es, ∀ cause, ¬ Excludes a e cause) : Compatible (es ++ [e]) := fun i cause hc => by
  have hi := hc.lt_length
  rw [List.length_append, List.length_singleton] at hi
  obtain hi | rfl := Nat.lt_succ_iff_lt_or_eq.1 hi
  · exact h i cause ((completes_append hi).1 hc)
  · obtain ⟨a, ha, hx⟩ := completes_length.1 hc
    exact he a ha cause hx

theorem Compatible.completesFirst {es rest : List (PropertyEntry E)} {a e : PropertyEntry E}
    {cause : Cause} (h : Compatible es) (ha : a ∈ es) (he : Excludes a e cause) :
    CompletesFirst (es ++ e :: rest) es.length cause :=
  ⟨completes_length.2 ⟨a, ha, he⟩, fun k hk cause' hc => h k cause' ((completes_append hk).1 hc)⟩

theorem Excludes.symm {a b : PropertyEntry E} {cause : Cause} (h : Excludes a b cause) :
    Excludes b a cause := by
  cases h with
  | dataAndAccessor ha hb hk => exact .dataAndAccessor hb ha (hk.symm.imp And.symm And.symm)
  | repeatedAccessor ha hb hk => exact .repeatedAccessor hb ha (hk.imp And.symm And.symm)
  | repeatedPrototype ha hb => exact .repeatedPrototype hb ha

theorem not_isData_of_isAccessor {e : PropertyEntry E} (h : e.isAccessor = true) :
    e.isData = false := by
  obtain _ | ⟨key, kind⟩ := e
  · rfl
  · cases kind <;> first | rfl | cases h

theorem isAccessor_of_isKind {e : PropertyEntry E} {kind : PropertyKind} (h : e.isKind kind = true)
    (hk : kind = .getter ∨ kind = .setter) : e.isAccessor = true := by
  rw [isAccessor, Bool.or_eq_true]
  obtain rfl | rfl := hk
  · exact .inl h
  · exact .inr h

theorem kind_of_isAccessor {key : PropertyKey E} {kind : PropertyKind}
    (h : (entry key kind).isAccessor = true) :
    kind = .getter ∨ kind = .setter := by
  cases kind <;> first | exact .inl rfl | exact .inr rfl | cases h

theorem isData_of_not_isAccessor {key : PropertyKey E} {kind : PropertyKind}
    (h : (entry key kind).isAccessor = false) : (entry key kind).isData = true := by
  cases kind <;> first | rfl | cases h

theorem of_setsPrototype {e : PropertyEntry E} (h : e.setsPrototype = true) :
    e.isData = true ∧ e.name? = some "__proto__" := by
  obtain _ | ⟨key, kind⟩ := e
  · cases h
  · rw [setsPrototype, Bool.and_eq_true, beq_iff_eq] at h
    obtain ⟨rfl, hn⟩ := h
    refine ⟨rfl, ?_⟩
    unfold Parse.namesPrototype at hn
    split at hn
    · exact congrArg some (beq_iff_eq.1 hn)
    · exact congrArg some (beq_iff_eq.1 hn)
    · cases hn

theorem Excludes.isAccessor_right {a b : PropertyEntry E} {name : String}
    (h : Excludes a b (.repeatedAccessor name)) : a.isAccessor = true ∧ b.isAccessor = true := by
  cases h with
  | repeatedAccessor _ _ hk =>
    obtain ⟨ha, hb⟩ | ⟨ha, hb⟩ := hk
    · exact ⟨isAccessor_of_isKind ha (.inl rfl), isAccessor_of_isKind hb (.inl rfl)⟩
    · exact ⟨isAccessor_of_isKind ha (.inr rfl), isAccessor_of_isKind hb (.inr rfl)⟩

theorem Excludes.of_dataAndAccessor {a b e : PropertyEntry E} {name : String} {cause : Cause}
    (ha : Excludes a e (.dataAndAccessor name)) (hb : Excludes b e cause) :
    cause = .dataAndAccessor name ∨ Excludes a b (.dataAndAccessor name) := by
  cases ha with
  | dataAndAccessor han hen hk =>
    cases hb with
    | dataAndAccessor _ hen' _ => exact .inl (congrArg _ (Option.some.inj (hen'.symm.trans hen)))
    | @repeatedAccessor name' hbn hen' hk' =>
      have hname : name' = name := Option.some.inj (hen'.symm.trans hen)
      obtain ⟨hba, hea⟩ := Excludes.isAccessor_right (.repeatedAccessor hbn hen' hk')
      obtain ⟨had, -⟩ | ⟨-, hed⟩ := hk
      · exact .inr (.dataAndAccessor han (hname ▸ hbn) (.inl ⟨had, hba⟩))
      · rw [not_isData_of_isAccessor hea] at hed
        cases hed
    | repeatedPrototype hbp hep =>
      obtain ⟨hed, hen'⟩ := of_setsPrototype hep
      obtain ⟨hbd, hbn⟩ := of_setsPrototype hbp
      obtain ⟨-, hea⟩ | ⟨haa, -⟩ := hk
      · rw [not_isData_of_isAccessor hea] at hed
        cases hed
      · exact .inr (.dataAndAccessor han (hbn.trans (hen'.symm.trans hen)) (.inr ⟨haa, hbd⟩))

theorem Excludes.cause_unique {a b e : PropertyEntry E} {cause cause' : Cause}
    (ha : Excludes a e cause) (hb : Excludes b e cause')
    (hn : ∀ name, ¬ Excludes a b (.dataAndAccessor name)) : cause = cause' := by
  have hd {x y : PropertyEntry E} {name : String} {cause : Cause}
      (hx : Excludes x e (.dataAndAccessor name))
      (hy : Excludes y e cause) (hn : ∀ name, ¬ Excludes x y (.dataAndAccessor name)) : cause =
      .dataAndAccessor name :=
    (hx.of_dataAndAccessor hy).resolve_right (hn _)
  cases ha with
  | dataAndAccessor han hen hk => exact (hd (.dataAndAccessor han hen hk) hb hn).symm
  | repeatedAccessor han hen hk =>
    cases hb with
    | dataAndAccessor hbn hen' hk' =>
      exact hd (.dataAndAccessor hbn hen' hk') (.repeatedAccessor han hen hk) fun _ h => hn _ h.symm
    | repeatedAccessor _ hen' _ => exact congrArg _ (Option.some.inj (hen.symm.trans hen'))
    | repeatedPrototype _ hep =>
      have hea := (Excludes.isAccessor_right (.repeatedAccessor han hen hk)).2
      have hed := (of_setsPrototype hep).1
      rw [not_isData_of_isAccessor hea] at hed
      cases hed
  | repeatedPrototype hap hep =>
    cases hb with
    | dataAndAccessor hbn hen' hk' =>
      exact hd (.dataAndAccessor hbn hen' hk') (.repeatedPrototype hap hep) fun _ h => hn _ h.symm
    | repeatedAccessor hbn hen hk =>
      have hea := (Excludes.isAccessor_right (.repeatedAccessor hbn hen hk)).2
      have hed := (of_setsPrototype hep).1
      rw [not_isData_of_isAccessor hea] at hed
      cases hed
    | repeatedPrototype => rfl

theorem not_excludes_self {a : PropertyEntry E} {name : String} :
    ¬ Excludes a a (.dataAndAccessor name) := by
  intro h
  cases h with
  | dataAndAccessor _ _ hk =>
    obtain ⟨hd, ha⟩ | ⟨ha, hd⟩ := hk
    all_goals
      rw [not_isData_of_isAccessor ha] at hd
      cases hd

theorem CompletesFirst.unique {es : List (PropertyEntry E)} {i i' : Nat} {cause cause' : Cause}
    (h : CompletesFirst es i cause) (h' : CompletesFirst es i' cause') :
    i = i' ∧ cause = cause' := by
  obtain hi | rfl | hi := Nat.lt_trichotomy i i'
  · exact absurd h.1 (h'.2 i hi cause)
  · refine ⟨rfl, ?_⟩
    obtain ⟨⟨j, hj, a, e, ha, he, hx⟩, hn⟩ := h
    obtain ⟨⟨k, hk, b, e', hb, he', hx'⟩, -⟩ := h'
    obtain rfl := Option.some.inj (he.symm.trans he')
    refine hx.cause_unique hx' fun name hab => ?_
    obtain hjk | rfl | hjk := Nat.lt_trichotomy j k
    · exact hn k hk _ ⟨j, hjk, a, b, ha, hb, hab⟩
    · obtain rfl := Option.some.inj (ha.symm.trans hb)
      exact not_excludes_self hab
    · exact hn j hj _ ⟨k, hjk, b, a, hb, ha, hab.symm⟩
  · exact absurd h'.1 (h.2 i' hi cause')

/-! What the parser keeps. -/

def usesOf (es : List (PropertyEntry E)) (name : String) : PropertyUse where
  data := es.any fun e => e.name? == some name && e.isData
  getter := es.any fun e => e.name? == some name && e.isKind .getter
  setter := es.any fun e => e.name? == some name && e.isKind .setter

theorem usesOf_append (es : List (PropertyEntry E)) (e : PropertyEntry E) (name : String) :
    usesOf (es ++ [e]) name =
      if e.name? = some name then
        ⟨(usesOf es name).data || e.isData, (usesOf es name).getter || e.isKind .getter,
          (usesOf es name).setter || e.isKind .setter⟩
      else usesOf es name := by
  simp only [usesOf, List.any_append, List.any_cons, List.any_nil, Bool.or_false]
  split
  · next h => simp [h]
  · next h => simp [h]

/-- The names that were kept tell how properties use each name. -/
def Recorded (names : PropertyNames) (es : List (PropertyEntry E)) : Prop :=
  ∀ name, PropertyNames.useOf names.table name = usesOf es name

/-- How a property is taken in: the names kept so far may exclude it. -/
def add (e : PropertyEntry E) (names : PropertyNames) (prototype : Bool) :
    Except Cause (PropertyNames × Bool) :=
  match e with
  | .spread => .ok (names, prototype)
  | .entry key kind =>
    if e.isAccessor then (names.addAccessorKey key kind).map (·, prototype)
    else if e.setsPrototype && prototype then .error .repeatedPrototype
    else (names.addDataKey key).map (·, prototype || e.setsPrototype)

section Uses

variable {es : List (PropertyEntry E)} {name : String}

theorem usesOf_data :
    (usesOf es name).data = true ↔ ∃ a ∈ es, a.name? = some name ∧ a.isData = true := by
  simp [usesOf]

theorem usesOf_getter :
    (usesOf es name).getter = true ↔ ∃ a ∈ es, a.name? = some name ∧ a.isKind .getter = true := by
  simp [usesOf]

theorem usesOf_setter :
    (usesOf es name).setter = true ↔ ∃ a ∈ es, a.name? = some name ∧ a.isKind .setter = true := by
  simp [usesOf]

theorem useOf_cons (table : List (String × PropertyUse)) (name : String) (use : PropertyUse)
    (x : String) :
    PropertyNames.useOf ((name, use) :: table) x = if name = x then use
      else PropertyNames.useOf table x := by
  simp only [PropertyNames.useOf, List.lookup_cons]
  by_cases h : name = x
  · simp [h]
  · rw [if_neg h, beq_false_of_ne (Ne.symm h)]

theorem useOf_data (names : List String) (x : String) :
    PropertyNames.useOf (PropertyNames.data names).table x = { data := names.contains x } := by
  induction names with
  | nil => rfl
  | cons name names ih =>
    rw [PropertyNames.table, List.map_cons, useOf_cons, List.contains_cons]
    by_cases h : name = x
    · simp [h]
    · rw [if_neg h, ← PropertyNames.table, ih, beq_false_of_ne (Ne.symm h), Bool.false_or]

end Uses

section Taking

variable {es : List (PropertyEntry E)} {e : PropertyEntry E} {names names' : PropertyNames}
  {prototype prototype' : Bool}

theorem recorded_none : Recorded .none ([] : List (PropertyEntry E)) := fun _ => rfl

theorem Recorded.nameless (h : Recorded names es) (he : e.name? = none) :
    Recorded names (es ++ [e]) := fun x => by
  rw [usesOf_append, he, if_neg nofun]
  exact h x

theorem not_excludes_nameless {a : PropertyEntry E} {cause : Cause} (he : e.name? = none) :
    ¬ Excludes a e cause := by
  rintro (⟨-, hb, -⟩ | ⟨-, hb, -⟩ | ⟨-, hb⟩)
  · rw [he] at hb
    cases hb
  · rw [he] at hb
    cases hb
  · rw [(of_setsPrototype hb).2] at he
    cases he

theorem Recorded.cons (h : Recorded names es) {name : String} (use : PropertyUse)
    (he : e.name? = some name) (hd : use.data = ((usesOf es name).data || e.isData))
    (hg : use.getter = ((usesOf es name).getter || e.isKind .getter))
    (hs : use.setter = ((usesOf es name).setter || e.isKind .setter)) :
    Recorded (.uses ((name, use) :: names.table)) (es ++ [e]) := fun x => by
  rw [usesOf_append, PropertyNames.table, useOf_cons, he]
  by_cases hx : name = x
  · subst hx
    rw [if_pos rfl, if_pos rfl, ← hd, ← hg, ← hs]
  · rw [if_neg hx, if_neg (fun hx' => hx (Option.some.inj hx')), h x]

/-- What is said of a property that is taken in, where none or some of those before exclude it. -/
structure Decides (es : List (PropertyEntry E)) (e : PropertyEntry E)
    (result : Except Cause PropertyNames) : Prop where
  ok : ∀ names', result = .ok names' → Recorded names' (es ++ [e]) ∧ ∀ a ∈ es, ∀ cause,
    Excludes a e cause →
    cause = .repeatedPrototype
  error : ∀ cause, result = .error cause → ∃ a ∈ es, Excludes a e cause

theorem decides_addAccessorKey {key : PropertyKey E} {kind : PropertyKind} (h : Recorded names es)
    (hk : kind = .getter ∨ kind = .setter) :
    Decides es (.entry key kind) (names.addAccessorKey key kind) := by
  have hacc : (PropertyEntry.entry key kind).isAccessor = true :=
    isAccessor_of_isKind (beq_self_eq_true kind) hk
  unfold PropertyNames.addAccessorKey
  cases hname : key.name? with
  | none =>
    refine ⟨fun names' hn => ?_, nofun⟩
    cases hn
    exact ⟨h.nameless hname, fun a _ cause hc => absurd hc (not_excludes_nameless hname)⟩
  | some name =>
    have hname : (PropertyEntry.entry key kind).name? = some name := hname
    have decides (used : Bool) (use : PropertyUse)
        (hu : used = true ↔ ∃ a ∈ es, a.name? = some name ∧ a.isKind kind = true)
        (hr : Recorded (.uses ((name, use) :: names.table)) (es ++ [.entry key kind])) :
        Decides es (.entry key kind)
          (if (usesOf es name).data then .error (.dataAndAccessor name)
          else if used then .error (.repeatedAccessor name)
          else .ok (.uses ((name, use) :: names.table))) := by
      by_cases hd : (usesOf es name).data = true
      · obtain ⟨a, ha, han, had⟩ := usesOf_data.1 hd
        rw [if_pos hd]
        refine ⟨nofun, fun cause hc => ?_⟩
        cases hc
        exact ⟨a, ha, .dataAndAccessor han hname (.inl ⟨had, hacc⟩)⟩
      rw [if_neg hd]
      by_cases hused : used = true
      · obtain ⟨a, ha, han, hak⟩ := hu.1 hused
        rw [if_pos hused]
        refine ⟨nofun, fun cause hc => ?_⟩
        cases hc
        have hek : (PropertyEntry.entry key kind).isKind kind = true := beq_self_eq_true kind
        exact ⟨a, ha, .repeatedAccessor han hname (by obtain rfl | rfl := hk <;> simp [hak, hek])⟩
      rw [if_neg hused]
      refine ⟨fun names' hn => ?_, nofun⟩
      cases hn
      refine ⟨hr, fun a ha cause hc => ?_⟩
      have hkind {kind' : PropertyKind} (h : (PropertyEntry.entry key kind).isKind kind' = true) :
          kind' = kind :=
        (beq_iff_eq.1 h).symm
      cases hc with
      | dataAndAccessor han hen hk' =>
        obtain rfl := Option.some.inj (hname.symm.trans hen)
        obtain ⟨had, -⟩ | ⟨-, hed⟩ := hk'
        · exact absurd (usesOf_data.2 ⟨a, ha, han, had⟩) hd
        · rw [not_isData_of_isAccessor hacc] at hed
          cases hed
      | repeatedAccessor han hen hk' =>
        obtain rfl := Option.some.inj (hname.symm.trans hen)
        obtain ⟨hak, hek⟩ | ⟨hak, hek⟩ :=
          hk' <;> exact absurd (hu.2 ⟨a, ha, han, hkind hek ▸ hak⟩) hused
      | repeatedPrototype => rfl
    have huse := h name
    dsimp only [PropertyNames.addAccessor]
    rw [huse]
    obtain rfl | rfl := hk
    · exact decides _ _ usesOf_getter (h.cons _ hname (by simp [isData, isKind]) (by simp [isKind])
        (by simp [isKind]))
    · exact decides _ _ usesOf_setter (h.cons _ hname (by simp [isData, isKind]) (by simp [isKind])
        (by simp [isKind]))

theorem decides_addDataKey {key : PropertyKey E} {kind : PropertyKind} (h : Recorded names es)
    (hd : (PropertyEntry.entry key kind).isData = true) :
    Decides es (.entry key kind) (names.addDataKey key) := by
  have hacc : (PropertyEntry.entry key kind).isAccessor = false := by
    by_contra hacc
    rw [not_isData_of_isAccessor (Bool.not_eq_false _ ▸ hacc)] at hd
    cases hd
  unfold PropertyNames.addDataKey
  cases hname : key.name? with
  | none =>
    refine ⟨fun names' hn => ?_, nofun⟩
    cases hn
    exact ⟨h.nameless hname, fun a _ cause hc => absurd hc (not_excludes_nameless hname)⟩
  | some name =>
    have hname : (PropertyEntry.entry key kind).name? = some name := hname
    have hkinds : (PropertyEntry.entry key kind).isKind .getter = false ∧
        (PropertyEntry.entry key kind).isKind .setter = false := Bool.or_eq_false_iff.1 hacc
    have hexcludes (hg : (usesOf es name).getter = false) (hs : (usesOf es name).setter = false)
        {a : PropertyEntry E} (ha : a ∈ es) {cause : Cause}
        (hc : Excludes a (.entry key kind) cause) :
        cause = .repeatedPrototype := by
      cases hc with
      | dataAndAccessor han hen hk =>
        obtain rfl := Option.some.inj (hname.symm.trans hen)
        obtain ⟨-, hea⟩ | ⟨haa, -⟩ := hk
        · rw [hacc] at hea
          cases hea
        obtain hag | has := Bool.or_eq_true_iff.1 haa
        · rw [usesOf_getter.2 ⟨a, ha, han, hag⟩] at hg
          cases hg
        · rw [usesOf_setter.2 ⟨a, ha, han, has⟩] at hs
          cases hs
      | repeatedAccessor han hen hk =>
        obtain ⟨-, hek⟩ | ⟨-, hek⟩ := hk
        · rw [hkinds.1] at hek
          cases hek
        · rw [hkinds.2] at hek
          cases hek
      | repeatedPrototype => rfl
    cases names with
    | data found =>
      have huse := h name
      rw [useOf_data] at huse
      have hg : (usesOf es name).getter = false := huse ▸ rfl
      have hs : (usesOf es name).setter = false := huse ▸ rfl
      refine ⟨fun names' hn => ?_, nofun⟩
      cases hn
      exact ⟨h.cons { data := true } hname (by simp [hd]) (by simp [hg, hkinds])
        (by simp [hs, hkinds]), fun a ha cause hc => hexcludes hg hs ha hc⟩
    | uses table =>
      have huse : PropertyNames.useOf table name = usesOf es name := h name
      dsimp only [PropertyNames.addData]
      rw [huse]
      by_cases hu : ((usesOf es name).getter || (usesOf es name).setter) = true
      · rw [if_pos hu]
        refine ⟨nofun, fun cause hc => ?_⟩
        cases hc
        obtain hg | hs := Bool.or_eq_true_iff.1 hu
        · obtain ⟨a, ha, han, hag⟩ := usesOf_getter.1 hg
          exact ⟨a, ha, .dataAndAccessor han hname (.inr ⟨isAccessor_of_isKind hag (.inl rfl), hd⟩)⟩
        · obtain ⟨a, ha, han, has⟩ := usesOf_setter.1 hs
          exact ⟨a, ha, .dataAndAccessor han hname (.inr ⟨isAccessor_of_isKind has (.inr rfl), hd⟩)⟩
      · rw [if_neg hu]
        rw [Bool.not_eq_true, Bool.or_eq_false_iff] at hu
        refine ⟨fun names' hn => ?_, nofun⟩
        cases hn
        exact ⟨h.cons _ hname (by simp [hd]) (by simp [hkinds]) (by simp [hkinds]),
          fun a ha cause hc => hexcludes hu.1 hu.2 ha hc⟩

theorem isData_addAccessorKey {key : PropertyKey E} {kind : PropertyKind}
    (h : names.addAccessorKey key kind = .ok names') : names'.isData = false := by
  unfold PropertyNames.addAccessorKey PropertyNames.addAccessor at h
  split at h
  · dsimp only at h
    repeat' split at h
    all_goals cases h
    all_goals rfl
  · cases h
    rfl

theorem isData_addDataKey {key : PropertyKey E} (h : names.addDataKey key = .ok names') :
    names'.isData = names.isData := by
  unfold PropertyNames.addDataKey PropertyNames.addData at h
  split at h
  · split at h
    · cases h
      rfl
    · dsimp only at h
      split at h <;> cases h
      rfl
  · cases h
    rfl

theorem add_ok (h : Recorded names es)
    (ha : e.add names (es.any (·.setsPrototype)) = .ok (names', prototype')) :
    Recorded names' (es ++ [e]) ∧ prototype' = (es ++ [e]).any (·.setsPrototype) ∧
      names'.isData = (names.isData && !e.isAccessor) ∧
      ∀ a ∈ es, ∀ cause, ¬ Excludes a e cause := by
  obtain _ | ⟨key, kind⟩ := e
  · cases ha
    exact ⟨h.nameless rfl, by simp [setsPrototype], by simp [isAccessor, isKind],
      fun a _ cause => not_excludes_nameless rfl⟩
  have hprototype {a : PropertyEntry E} {cause : Cause} (hc : Excludes a (.entry key kind) cause)
      (hr : cause = .repeatedPrototype) : a.setsPrototype = true ∧
      (entry key kind).setsPrototype = true := by
    subst hr
    cases hc with
    | repeatedPrototype ha he => exact ⟨ha, he⟩
  rw [add] at ha
  by_cases hacc : (entry key kind).isAccessor = true
  · have hd : Decides es (entry key kind) (names.addAccessorKey key kind) :=
      decides_addAccessorKey h (kind_of_isAccessor hacc)
    have hs : (entry key kind).setsPrototype = false := by
      by_contra hs
      have hdata := (of_setsPrototype (Bool.not_eq_false _ ▸ hs)).1
      rw [not_isData_of_isAccessor hacc] at hdata
      cases hdata
    rw [if_pos hacc] at ha
    cases hx : names.addAccessorKey key kind with
    | error cause =>
      rw [hx] at ha
      cases ha
    | ok found =>
      rw [hx] at ha
      cases ha
      obtain ⟨hr, hn⟩ := hd.ok _ hx
      refine ⟨hr, by simp [hs], by simp [isData_addAccessorKey hx, hacc], fun a hm cause hc => ?_⟩
      have hp := (hprototype hc (hn a hm cause hc)).2
      rw [hs] at hp
      cases hp
  · rw [Bool.not_eq_true] at hacc
    have hd : Decides es (entry key kind) (names.addDataKey key) :=
      decides_addDataKey h (isData_of_not_isAccessor hacc)
    rw [hacc, if_neg Bool.false_ne_true] at ha
    split at ha
    · cases ha
    next hp =>
    cases hx : names.addDataKey key with
    | error cause =>
      rw [hx] at ha
      cases ha
    | ok found =>
      rw [hx] at ha
      cases ha
      obtain ⟨hr, hn⟩ := hd.ok _ hx
      refine ⟨hr, by simp, by simp [isData_addDataKey hx, hacc], fun a hm cause hc => ?_⟩
      obtain ⟨has, hes⟩ := hprototype hc (hn a hm cause hc)
      exact hp (Bool.and_eq_true_iff.2 ⟨hes, List.any_eq_true.2 ⟨a, hm, has⟩⟩)

theorem add_error (h : Recorded names es) {cause : Cause}
    (ha : e.add names (es.any (·.setsPrototype)) = .error cause) :
    ∃ a ∈ es, Excludes a e cause := by
  obtain _ | ⟨key, kind⟩ := e
  · cases ha
  rw [add] at ha
  by_cases hacc : (entry key kind).isAccessor = true
  · rw [if_pos hacc] at ha
    cases hx : names.addAccessorKey key kind with
    | error cause' =>
      rw [hx] at ha
      cases ha
      exact (decides_addAccessorKey h (kind_of_isAccessor hacc)).error _ hx
    | ok found =>
      rw [hx] at ha
      cases ha
  · rw [Bool.not_eq_true] at hacc
    rw [hacc, if_neg Bool.false_ne_true] at ha
    split at ha
    · next hp =>
      cases ha
      rw [Bool.and_eq_true] at hp
      obtain ⟨a, hm, has⟩ := List.any_eq_true.1 hp.2
      exact ⟨a, hm, .repeatedPrototype has hp.1⟩
    · cases hx : names.addDataKey key with
      | error cause' =>
        rw [hx] at ha
        cases ha
        exact (decides_addDataKey h (isData_of_not_isAccessor hacc)).error _ hx
      | ok found =>
        rw [hx] at ha
        cases ha

end Taking

end PropertyEntry

end EcmaFront
