import FirstMatch.Recipe
import FirstMatch.Proofs.RenamedCalls

/-!
Recipes take the numbers of errors for names. A recipe passes errors on and tells their classes, but it
makes nothing of their numbers; so an action that follows one does the same under other numbers, unless
there are numbers in its constants.
-/

namespace FirstMatch

variable {R : Renaming}

namespace Fault

theorem Renamed.kind {f g : Fault} (h : f.Renamed R g) : g.kind = f.kind := by
  cases h <;> rfl

end Fault

namespace Value

theorem Renamed.number? {v w : Value} (h : v.Renamed R w) : w.number? = v.number? := by
  cases h <;> rfl

theorem Renamed.typeName {v w : Value} (h : v.Renamed R w) : w.typeName = v.typeName := by
  cases h with
  | fault renamed => exact renamed.kind
  | _ => rfl

mutual

/-- Errors are the same key as nothing, whatever their numbers are. -/
theorem Renamed.same {v w : Value} (h : v.Renamed R w) (u : Value) : w.same u = v.same u := by
  cases h with
  | list items =>
    cases u with
    | list us => exact items.same us
    | _ => rfl
  | tuple items =>
    cases u with
    | tuple us => exact items.same us
    | _ => rfl
  | mapping entries => cases u <;> rfl
  | fault renamed => cases u <;> rfl
  | atom v atom => rfl

theorem RenamedAll.same {vs ws : List Value} (h : RenamedAll R vs ws) (us : List Value) :
    sameAll ws us = sameAll vs us := by
  cases h with
  | nil => rfl
  | cons head tail =>
    cases us with
    | nil => rfl
    | cons u us => exact congrArg₂ and (head.same u) (tail.same us)

end

theorem RenamedAll.any_same {vs ws : List Value} (h : RenamedAll R vs ws) (u : Value) :
    (ws.any fun w => w.same u) = vs.any fun v => v.same u := by
  induction vs generalizing ws with
  | nil =>
    cases h
    rfl
  | cons v vs ih =>
    cases h with
    | cons head tail => rw [List.any_cons, List.any_cons, head.same, ih tail]

theorem RenamedEntries.any_same {es fs : List (Value × Value)} (h : RenamedEntries R es fs) (u : Value) :
    (fs.any fun f => f.1.same u) = es.any fun e => e.1.same u := by
  induction es generalizing fs with
  | nil =>
    cases h
    rfl
  | cons e es ih =>
    cases h with
    | cons key value tail => rw [List.any_cons, List.any_cons, key.same, ih tail]

theorem renamedAll_iff {vs ws : List Value} : RenamedAll R vs ws ↔ List.Forall₂ (Renamed R) vs ws := by
  induction vs generalizing ws with
  | nil =>
    constructor
    · intro h
      cases h
      exact .nil
    · intro h
      cases h
      exact .nil
  | cons v vs ih =>
    constructor
    · intro h
      cases h with
      | cons head tail => exact .cons head (ih.mp tail)
    · intro h
      cases h with
      | cons head tail => exact .cons head (ih.mpr tail)

theorem RenamedAll.length {vs ws : List Value} (h : RenamedAll R vs ws) : ws.length = vs.length :=
  (renamedAll_iff.mp h).length_eq.symm

theorem RenamedAll.reverse {vs ws : List Value} (h : RenamedAll R vs ws) :
    RenamedAll R vs.reverse ws.reverse :=
  renamedAll_iff.mpr (List.rel_reverse (renamedAll_iff.mp h))

theorem RenamedAll.getLastD {vs ws : List Value} (h : RenamedAll R vs ws) {v w : Value}
    (hvw : v.Renamed R w) : (vs.getLastD v).Renamed R (ws.getLastD w) := by
  induction vs generalizing ws v w with
  | nil =>
    cases h
    exact hvw
  | cons u vs ih =>
    cases h with
    | cons head tail =>
      rw [List.getLastD_cons, List.getLastD_cons]
      exact ih tail head

theorem renamed_record {c d : Arguments} (h : RenamedArguments R c d) :
    (record c).Renamed R (record d) := by
  refine .mapping ?_
  induction h with
  | nil => exact .nil
  | @cons a b c d hab _ ih =>
    obtain ⟨name, v⟩ := a
    obtain ⟨name', w⟩ := b
    obtain ⟨rfl, hvw⟩ := hab
    exact .cons (.atom _ rfl) hvw ih

theorem renamed_standing (c : Cursor) : (standing c).Renamed R (standing c) := renamed_self rfl

end Value

theorem RenamedArguments.lookup {c d : Arguments} (h : RenamedArguments R c d) (name : String) :
    Option.Rel (Value.Renamed R) (c.lookup name) (d.lookup name) := by
  induction h with
  | nil => exact .none
  | @cons a b c d hab _ ih =>
    obtain ⟨key, v⟩ := a
    obtain ⟨key', w⟩ := b
    obtain ⟨rfl, hvw⟩ := hab
    rw [List.lookup_cons, List.lookup_cons]
    cases name == key with
    | true => exact .some hvw
    | false => exact ih

theorem Outcome.renamed_record {o p : Outcome} (h : o.Renamed R p) : o.record.Renamed R p.record := by
  cases h with
  | emitted token location =>
    have hlocation := Value.Renamed.atom (R := R) (.span location) rfl
    exact Value.renamed_record
      (.cons ⟨rfl, .atom _ rfl⟩ (.cons ⟨rfl, token⟩ (.cons ⟨rfl, hlocation⟩ .nil)))
  | skipped location => exact Value.renamed_self rfl
  | exhausted => exact Value.renamed_self rfl
  | failed fault =>
    exact Value.renamed_record (.cons ⟨rfl, .atom _ rfl⟩ (.cons ⟨rfl, .fault fault⟩ .nil))

namespace Script

variable {α β γ δ σ τ : Type} {A : Renaming → α → β → Prop}
  {B : Renaming → γ → δ → Prop}

theorem Renamed.bind {p : Script α} {q : Script β} {k : α → Script γ} {l : β → Script δ}
    (h : Renamed A R p q) (hk : ∀ S, R ≤ S → ∀ a b, A S a b → Renamed B S (k a) (l b)) :
    Renamed B R (p.bind k) (q.bind l) := by
  induction h with
  | @done R a b related => exact hk R (le_refl R) a b related
  | fail renamed => exact .fail renamed
  | ask request _ ih =>
    exact .ask request fun S hS unique a b hab => ih S hS unique a b hab fun T hT =>
      hk T (hS.trans hT)
  | stall => exact .stall

theorem renamed_request {q r : Request} (h : q.Renamed R r) :
    Renamed (fun S => q.Answered S r) R (request q) (request r) := by
  refine .ask h fun S _ _ a b hab => ?_
  cases hab with
  | ok related => exact .done related
  | error renamed => exact .fail renamed

theorem Renamed.orElse {p other : Script α} {q other' : Script β} (h : Renamed A R p q)
    (hother : ∀ S, R ≤ S → Renamed A S other other') :
    Renamed A R (p.orElse other) (q.orElse other') := by
  induction h with
  | done related => exact .done related
  | @fail R f g renamed =>
    unfold Script.orElse
    rw [renamed.isOrdinary]
    split
    · exact hother R (le_refl R)
    · exact .fail renamed
  | ask request _ ih =>
    exact .ask request fun S hS unique a b hab => ih S hS unique a b hab fun T hT =>
      hother T (hS.trans hT)
  | stall => exact .stall

theorem renamed_iterate {turn : σ → Script (σ ⊕ α)} {turn' : τ → Script (τ ⊕ β)}
    {C : Renaming → σ → τ → Prop} (turns : Nat)
    (hturn : ∀ S, R ≤ S → ∀ x y, C S x y →
      Renamed (fun T => Sum.LiftRel (C T) (A T)) S (turn x) (turn' y)) {x : σ} {y : τ} (h : C R x y) :
    Renamed A R (iterate turn turns x) (iterate turn' turns y) := by
  induction turns generalizing R x y with
  | zero => exact .stall
  | succ turns ih =>
    refine (hturn R (le_refl R) x y h).bind fun S hS a b hab => ?_
    cases hab with
    | inl hnext => exact ih (fun T hT => hturn T (hS.trans hT)) hnext
    | inr hresult => exact .done hresult

theorem renamed_ite {p q : Script α} {p' q' : Script β} {c : Prop} [Decidable c] (hp : Renamed A R p p')
    (hq : Renamed A R q q') : Renamed A R (if c then p else q) (if c then p' else q') := by
  split
  · exact hp
  · exact hq

end Script

namespace Recipe

open Script (request renamed_request renamed_iterate renamed_ite)

mutual

/-- Whether there is no number of an error in the constants of a recipe. -/
def isNumberless : Recipe → Bool
  | const v => v.isNumberless
  | tag label => label.isNumberless
  | ifText _ yes no => yes.isNumberless && no.isNumberless
  | ifKeyword _ yes no => yes.isNumberless && no.isNumberless
  | steps all => areNumberless all
  | items all => areNumberless all
  | guarded body other => body.isNumberless && other.isNumberless
  | sub run => run.context.all Arguments.isNumberless
  | balance _ closed _ => closed.isNumberless
  | step _ context => context.isNumberless
  | tokenize _ context => context.all Arguments.isNumberless
  | _ => true

def areNumberless : List Recipe → Bool
  | [] => true
  | r :: rs => r.isNumberless && areNumberless rs

end

variable {b c : Bound}

/-- The same result on both sides. -/
abbrev Same {α : Type} : Renaming → α → α → Prop := fun _ => Eq

theorem renamed_onCursor {α β : Type} {A : Renaming → α → β → Prop} (hb : b.Renamed R c)
    {k : Nat → Script α} {l : Nat → Script β} (hk : ∀ i, Script.Renamed A R (k i) (l i)) :
    Script.Renamed A R (cursorOf b >>= k) (cursorOf c >>= l) := by
  unfold cursorOf
  rw [hb.cursor?]
  cases b.cursor? with
  | none => exact .fail (.other _ rfl)
  | some i => exact hk i

/-- Goes on with an answer in which there is no number of an error. -/
theorem renamed_asked {α β : Type} {A : Renaming → α → β → Prop} (q : Request)
    (bare : q.isBare = true) {k : q.Answer → Script α} {l : q.Answer → Script β}
    (hk : ∀ S, R ≤ S → ∀ a, Script.Renamed A S (k a) (l a)) :
    Script.Renamed A R (request q >>= k) (request q >>= l) := by
  refine (renamed_request (.plain q (Request.isPlain_of_isBare bare))).bind fun S hS a b hab => ?_
  obtain rfl := Request.eq_of_answered bare hab
  exact hk S hS a

/-- Goes on with what the cursor of the action stands at. -/
theorem renamed_looking {α β : Type} {A : Renaming → α → β → Prop} (hb : b.Renamed R c)
    {k : Cursor → Script α} {l : Cursor → Script β}
    (hk : ∀ S, R ≤ S → ∀ x, Script.Renamed A S (k x) (l x)) :
    Script.Renamed A R (look b >>= k) (look c >>= l) := by
  have hlook : Script.Renamed Same R (look b) (look c) :=
    renamed_onCursor hb fun i => renamed_request (.plain (.look i) rfl)
  refine hlook.bind fun S hS x y hxy => ?_
  obtain rfl : x = y := hxy
  exact hk S hS x

/-- Goes on in one of two ways, the same on both sides. -/
theorem renamed_branch {α β : Type} {A : Renaming → α → β → Prop} {p q : Script Bool}
    (h : Script.Renamed Same R p q) {yes no : Script α} {yes' no' : Script β}
    (hyes : ∀ S, R ≤ S → Script.Renamed A S yes yes')
    (hno : ∀ S, R ≤ S → Script.Renamed A S no no') :
    Script.Renamed A R (p >>= fun held => if held then yes else no)
      (q >>= fun held => if held then yes' else no') := by
  refine h.bind fun S hS held held' heq => ?_
  obtain rfl : held = held' := heq
  exact renamed_ite (hyes S hS) (hno S hS)

theorem renamed_ofNumeral (e : Except Numeral.Flaw Int) :
    Script.Renamed Value.Renamed R (ofNumeral e) (ofNumeral e) := by
  cases e with
  | ok n => exact .done (.atom _ rfl)
  | error flaw => exact .fail (.other _ rfl)

theorem renamed_ofCall (e : Except CallFlaw Unit) :
    Script.Renamed Same R (ofCall e) (ofCall e) := by
  cases e with
  | ok _ => exact .done rfl
  | error flaw => exact .fail (.other _ rfl)

theorem renamed_keywordOf (hb : b.Renamed R c) (name : String) :
    Script.Renamed Value.Renamed R (keywordOf b name) (keywordOf c name) := by
  have h := hb.keywords.lookup name
  unfold keywordOf
  generalize b.keywords.lookup name = x at h
  generalize c.keywords.lookup name = y at h
  cases h with
  | none => exact .fail (.other _ rfl)
  | some hvw => exact .done hvw

theorem renamed_holds {container container' : Value} (h : container.Renamed R container') (v : Value) :
    Script.Renamed Same R (holds container v) (holds container' v) := by
  cases h with
  | list items => exact .done ((Value.RenamedAll.any_same items v).symm)
  | tuple items => exact .done ((Value.RenamedAll.any_same items v).symm)
  | mapping entries => exact .done ((Value.RenamedEntries.any_same entries v).symm)
  | @fault f g renamed =>
    have hname : (Value.fault g).typeName = (Value.fault f).typeName := renamed.kind
    change Script.Renamed Same R (.fail (.call (.notContainer _))) (.fail (.call (.notContainer _)))
    rw [hname]
    exact .fail (.other _ rfl)
  | atom u atom =>
    unfold holds
    split
    · exact .done rfl
    · cases atom
    · cases atom
    · cases atom
    · exact .fail (.other _ rfl)

theorem renamed_shown {v w : Value} (h : v.Renamed R w) :
    Script.Renamed Value.Renamed R (shown v) (shown w) := by
  cases h with
  | atom v atom =>
    cases v with
    | cursor i =>
      exact renamed_asked (.look i) rfl fun S _ a => .done (Value.renamed_standing a)
    | _ => exact .done (.atom _ atom)
  | list items => exact .done (.list items)
  | tuple items => exact .done (.tuple items)
  | mapping entries => exact .done (.mapping entries)
  | fault renamed => exact .done (.fault renamed)

theorem renamed_shownAll {vs ws : List Value} (h : Value.RenamedAll R vs ws) :
    Script.Renamed Value.RenamedAll R (shownAll vs) (shownAll ws) := by
  induction vs generalizing ws R with
  | nil =>
    cases h
    exact .done .nil
  | cons v vs ih =>
    cases h with
    | cons head tail =>
      refine (renamed_shown head).bind fun S hS a b hab => ?_
      refine (ih (tail.mono hS)).bind fun T hT as bs habs => ?_
      exact .done (.cons (hab.mono hT) habs)

theorem renamed_shownFields {xs ys : Arguments} (h : RenamedArguments R xs ys) :
    Script.Renamed RenamedArguments R (shownFields xs) (shownFields ys) := by
  induction xs generalizing ys R with
  | nil =>
    cases h
    exact .done .nil
  | cons x xs ih =>
    cases h with
    | cons head tail =>
      refine (renamed_shown head.2).bind fun S hS a b hab => ?_
      refine (ih (RenamedArguments.mono hS tail)).bind fun T hT as bs habs => ?_
      exact .done (.cons ⟨head.1, hab.mono hT⟩ habs)

theorem renamed_joinFrom {vs ws : List Value} (h : Value.RenamedAll R vs ws) (index : Nat) :
    Script.Renamed Same R (joinFrom index vs) (joinFrom index ws) := by
  induction vs generalizing ws index with
  | nil =>
    cases h
    exact .done rfl
  | cons v vs ih =>
    cases h with
    | cons head tail =>
      cases head with
      | atom _ atom =>
        cases v with
        | text cs =>
          refine (ih tail (index + 1)).bind fun S _ a b hab => ?_
          obtain rfl : a = b := hab
          exact .done rfl
        | _ => exact .fail (.other _ rfl)
      | @fault f g renamed =>
        have hname : (Value.fault g).typeName = (Value.fault f).typeName := renamed.kind
        unfold joinFrom
        rw [hname]
        exact .fail (.other _ rfl)
      | _ => exact .fail (.other _ rfl)

theorem renamed_pairValue {x y : Value × Span} (h : x.1.Renamed R y.1) (same : x.2 = y.2) :
    (pairValue x).Renamed R (pairValue y) := by
  unfold pairValue
  rw [same]
  exact .list (.cons h (.cons (.atom _ rfl) .nil))

/-- Goes on with the next token of a stream. -/
theorem renamed_nextToken {α β : Type} {A : Renaming → α → β → Prop} (stream : Nat)
    {k : Option (Value × Span) → Script α} {l : Option (Value × Span) → Script β}
    (none : ∀ S, R ≤ S → Script.Renamed A S (k none) (l none))
    (some : ∀ S, R ≤ S → ∀ v w span, v.Renamed S w →
      Script.Renamed A S (k (some (v, span))) (l (some (w, span)))) :
    Script.Renamed A R (request (.next stream) >>= k) (request (.next stream) >>= l) := by
  refine (renamed_request (.plain (.next stream) rfl)).bind fun S hS a b hab => ?_
  cases hab with
  | none => exact none S hS
  | @some x y hxy =>
    obtain ⟨v, span⟩ := x
    obtain ⟨w, span'⟩ := y
    obtain ⟨hvw, rfl⟩ := hxy
    exact some S hS v w span hvw

/-- Opens a stream on a cursor. -/
theorem renamed_openStream {α β : Type} {A : Renaming → α → β → Prop} (lexer : String) (i : Nat)
    {xs ys : Arguments} (h : RenamedArguments R xs ys) {k : Nat → Script α} {l : Nat → Script β}
    (hk : ∀ S, R ≤ S → ∀ stream, Script.Renamed A S (k stream) (l stream)) :
    Script.Renamed A R (request (.openStream lexer i xs) >>= k) (request (.openStream lexer i ys) >>= l) := by
  refine (renamed_request (.openStream lexer i h)).bind fun S hS a b hab => ?_
  obtain rfl : a = b := hab
  exact hk S hS a

theorem renamed_getD {xs ys : Arguments} (h : RenamedArguments R xs ys) {context : Option Arguments}
    (hcontext : context.all Arguments.isNumberless = true) :
    RenamedArguments R (context.getD xs) (context.getD ys) := by
  cases context with
  | none => exact h
  | some zs => exact Arguments.renamed_self hcontext

theorem renamed_collectTurn (run : SubRun) (stream : Nat) {kept kept' : List Value}
    (h : Value.RenamedAll R kept kept') :
    Script.Renamed (fun S => Sum.LiftRel (Value.RenamedAll S) (Value.RenamedAll S)) R
      (collectTurn run stream kept) (collectTurn run stream kept') := by
  refine renamed_nextToken stream (fun S hS => ?_) fun S hS v w span hvw => ?_
  · dsimp only
    split
    · exact .fail (.other _ rfl)
    · exact .done (.inr (h.mono hS))
  · have hstop : (run.stop.any fun stop => w.same stop) = run.stop.any fun stop => v.same stop := by
      cases run.stop with
      | none => rfl
      | some stop => exact hvw.same stop
    have hkept : Value.RenamedAll S ((if run.spans then pairValue (v, span) else v) :: kept)
        ((if run.spans then pairValue (w, span) else w) :: kept') := by
      refine .cons ?_ (h.mono hS)
      split
      · exact renamed_pairValue hvw rfl
      · exact hvw
    dsimp only
    rw [hstop, hkept.length]
    exact renamed_ite (.done (.inr (h.mono hS)))
      (renamed_ite (.done (.inr hkept)) (.done (.inl hkept)))

theorem renamed_collect (hb : b.Renamed R c) (turns : Nat) {run : SubRun}
    (hrun : run.context.all Arguments.isNumberless = true) :
    Script.Renamed Value.Renamed R (collect turns run b) (collect turns run c) := by
  refine renamed_onCursor hb fun i => ?_
  refine renamed_openStream run.lexer i (renamed_getD hb.keywords hrun) fun S _ stream => ?_
  refine Script.Renamed.bind (A := Value.RenamedAll) ?_ fun T _ kept kept' hkept => ?_
  · exact renamed_iterate (C := Value.RenamedAll) turns (fun _ _ _ _ => renamed_collectTurn run stream) .nil
  · refine renamed_ite ?_ (.done (.list hkept.reverse))
    refine (renamed_joinFrom hkept.reverse 0).bind fun U _ a b hab => ?_
    obtain rfl : a = b := hab
    exact .done (.atom _ rfl)

theorem renamed_balanceTurn (stream : Nat) (unterminated : String) (depth : Int) :
    Script.Renamed (fun _ => Sum.LiftRel Eq Eq) R (balanceTurn stream unterminated depth)
      (balanceTurn stream unterminated depth) := by
  refine renamed_nextToken stream (fun S _ => .fail (.other _ rfl)) fun S _ v w span hvw => ?_
  dsimp only
  rw [hvw.number?, hvw.typeName]
  split
  · exact renamed_ite (.done (.inr rfl)) (.done (.inl rfl))
  · exact .fail (.other _ rfl)

theorem renamed_balanced (hb : b.Renamed R c) (turns : Nat) (lexer unterminated : String) :
    Script.Renamed Same R (balanced turns lexer unterminated b) (balanced turns lexer unterminated c) := by
  refine renamed_onCursor hb fun i => renamed_openStream lexer i .nil fun S _ stream => ?_
  refine renamed_iterate (C := Same) turns (fun T _ depth depth' hdepth => ?_) rfl
  obtain rfl : depth = depth' := hdepth
  exact renamed_balanceTurn stream unterminated depth

theorem renamed_tokenized (hb : b.Renamed R c) (turns : Nat) (lexer : String) {context : Option Arguments}
    (hcontext : context.all Arguments.isNumberless = true) :
    Script.Renamed Value.Renamed R (tokenized turns lexer context b)
      (tokenized turns lexer context c) := by
  have hgiven := renamed_getD hb.keywords hcontext
  unfold tokenized
  dsimp only
  rw [hb.text, hgiven.names]
  refine (renamed_ofCall _).bind fun Q hQ _ _ _ => ?_
  refine renamed_asked (.openText b.text) rfl fun S hS i => ?_
  refine renamed_openStream lexer i (hgiven.mono (hQ.trans hS)) fun T _ stream => ?_
  refine Script.Renamed.bind (A := Value.RenamedAll) ?_ fun U _ found found' hfound => ?_
  · refine renamed_iterate (C := Value.RenamedAll) turns (fun U _ before before' h => ?_) .nil
    refine renamed_nextToken stream (fun V hV => .done (.inr (h.mono hV))) fun V hV v w span hvw => ?_
    exact .done (.inl (.cons (renamed_pairValue hvw rfl) (h.mono hV)))
  · exact .done (.list hfound.reverse)

theorem renamed_stepped (hb : b.Renamed R c) (engine : String) {context : Arguments}
    (hcontext : context.isNumberless = true) :
    Script.Renamed Value.Renamed R (stepped engine context b) (stepped engine context c) := by
  refine renamed_onCursor hb fun i => ?_
  have hstep := renamed_request (R := R) (.step engine i (Arguments.renamed_self hcontext))
  refine hstep.bind fun S _ o p hop => ?_
  have hrecord := Outcome.renamed_record hop
  cases hop with
  | failed fault =>
    refine (renamed_request (.cite fault)).bind fun T hT _ _ _ => ?_
    exact .done (hrecord.mono hT)
  | _ => exact .done hrecord

/-- The arguments of the action as a token. -/
theorem renamed_arguments (hb : b.Renamed R c) (turns calls : Nat) :
    Script.Renamed Value.Renamed R (arguments.script turns b calls)
      (arguments.script turns c calls) := by
  have hpositional := Value.renamedAll_iff.mpr hb.positional
  unfold script
  refine (renamed_shownAll hpositional).bind fun S hS vs ws hvs => ?_
  refine (renamed_shownFields (hb.mono hS).keywords).bind fun T hT xs ys hxs => ?_
  exact .done (Value.renamed_record (.cons ⟨rfl, .list (hvs.mono hT)⟩
    (.cons ⟨rfl, Value.renamed_record hxs⟩ .nil)))

theorem renamed_int {base : Value} (hb : b.Renamed R c) (turns calls : Nat) :
    Script.Renamed Value.Renamed R ((int base).script turns b calls)
      ((int base).script turns c calls) := by
  unfold script
  rw [hb.text]
  split
  · exact renamed_ofNumeral _
  · exact .fail (.other _ rfl)

/-- The next character, if there is one. -/
theorem renamed_peek (hb : b.Renamed R c) (turns calls : Nat) :
    Script.Renamed Value.Renamed R (peek.script turns b calls) (peek.script turns c calls) := by
  unfold script
  refine renamed_looking hb fun S _ x => .done ?_
  cases x.peek with
  | none => exact .atom _ rfl
  | some a => exact .atom _ rfl

theorem renamed_streamNext (name : String) (turns calls : Nat) :
    Script.Renamed Value.Renamed R ((streamNext name).script turns b calls)
      ((streamNext name).script turns c calls) := by
  unfold script
  refine renamed_asked (.streamNamed name) rfl fun S _ stream => ?_
  refine renamed_nextToken stream (fun T _ => .fail (.other _ rfl)) fun T _ v w span hvw => ?_
  exact .done (renamed_pairValue hvw rfl)

mutual

/-- A recipe without numbers in its constants does the same under other numbers. -/
theorem renamed_script {R : Renaming} (r : Recipe) (hr : r.isNumberless = true) (hb : b.Renamed R c)
    (turns calls : Nat) :
    Script.Renamed Value.Renamed R (r.script turns b calls) (r.script turns c calls) := by
  have htext : c.text = b.text := hb.text
  cases r with
  | text => exact .done (htext ▸ .atom _ rfl)
  | const v => exact .done (Value.renamed_self hr)
  | word => exact .done (htext ▸ .atom _ rfl)
  | skip => exact .done (.atom _ rfl)
  | tag label =>
    exact .done (.list (.cons (Value.renamed_self hr) (.cons (htext ▸ .atom _ rfl) .nil)))
  | int base => exact renamed_int hb turns calls
  | size => exact .done (htext ▸ .atom _ rfl)
  | arguments => exact renamed_arguments hb turns calls
  | keyword name => exact renamed_keywordOf hb name
  | callCount => exact .done (.atom _ rfl)
  | raise kind message => exact .fail (.other _ rfl)
  | ifText among yes no =>
    obtain ⟨hyes, hno⟩ := (Bool.and_eq_true _ _).mp hr
    unfold script
    rw [htext]
    exact renamed_branch (.done rfl) (fun S hS => renamed_script yes hyes (hb.mono hS) turns calls)
      fun S hS => renamed_script no hno (hb.mono hS) turns calls
  | ifKeyword name yes no =>
    obtain ⟨hyes, hno⟩ := (Bool.and_eq_true _ _).mp hr
    unfold script
    rw [htext]
    refine (renamed_keywordOf hb name).bind fun S hS v w hvw => ?_
    exact renamed_branch (renamed_holds hvw _)
      (fun T hT => renamed_script yes hyes (hb.mono (hS.trans hT)) turns calls)
      fun T hT => renamed_script no hno (hb.mono (hS.trans hT)) turns calls
  | steps all =>
    unfold script
    refine (renamed_scripts all hr hb turns calls).bind fun S _ vs ws hvs => ?_
    exact .done (hvs.getLastD (.atom _ rfl))
  | items all =>
    unfold script
    exact (renamed_scripts all hr hb turns calls).bind fun S _ vs ws hvs => .done (.list hvs)
  | guarded body other =>
    obtain ⟨hbody, hother⟩ := (Bool.and_eq_true _ _).mp hr
    unfold script
    exact (renamed_script body hbody hb turns calls).orElse fun S hS =>
      renamed_script other hother (hb.mono hS) turns calls
  | advance n =>
    exact renamed_onCursor hb fun i =>
      renamed_asked (.advance i n) rfl fun S _ p => .done (Value.renamed_self rfl)
  | peek => exact renamed_peek hb turns calls
  | remaining => exact renamed_looking hb fun S _ x => .done (.atom _ rfl)
  | mark =>
    exact renamed_onCursor hb fun i =>
      renamed_asked (.mark i) rfl fun S _ marked => .done (.atom _ rfl)
  | standing => exact renamed_looking hb fun S _ x => .done (Value.renamed_standing x)
  | sameCursor name =>
    exact renamed_asked (.cursorNamed name) rfl fun S hS other =>
      renamed_onCursor (hb.mono hS) fun i => .done (Value.renamed_self rfl)
  | sub run => exact renamed_collect hb turns hr
  | balance lexer closed unterminated =>
    unfold script
    refine (renamed_balanced hb turns lexer unterminated).bind fun S hS _ _ _ => ?_
    exact renamed_script closed hr (hb.mono hS) turns calls
  | step engine context => exact renamed_stepped hb engine hr
  | streamNext name => exact renamed_streamNext name turns calls
  | tokenize lexer context => exact renamed_tokenized hb turns lexer hr

theorem renamed_scripts {R : Renaming} (rs : List Recipe) (hrs : areNumberless rs = true)
    (hb : b.Renamed R c) (turns calls : Nat) :
    Script.Renamed Value.RenamedAll R (scripts turns b calls rs) (scripts turns c calls rs) := by
  cases rs with
  | nil => exact .done .nil
  | cons r rs =>
    obtain ⟨hr, hrs⟩ := (Bool.and_eq_true _ _).mp hrs
    unfold scripts
    refine (renamed_script r hr hb turns calls).bind fun S hS v w hvw => ?_
    refine (renamed_scripts rs hrs (hb.mono hS) turns calls).bind fun T hT vs ws hvs => ?_
    exact .done (.cons (hvw.mono hT) hvs)

end

/-- What an action does that follows such a recipe. -/
theorem renamed_action {turns : Nat} {name : String} {id : Nat} {signature : Signature} {r : Recipe}
    (hr : r.isNumberless = true) (hb : b.Renamed R c) :
    Script.Renamed Value.Renamed R ((action turns name id signature r).body b)
      ((action turns name id signature r).body c) := by
  exact renamed_asked (.countCall id) rfl fun S hS count =>
    renamed_script r hr (hb.mono hS) turns count

end Recipe

namespace Action

/-- Actions in which there is no number of an error: those that follow a recipe without any, and those that
are given names. -/
inductive Numberless : Action → Prop
  | skip : Numberless skip
  | string : Numberless string
  | integer : Numberless integer
  | word : Numberless word
  | recipe (turns : Nat) (name : String) (id : Nat) {signature : Signature} {p : Recipe}
      (defaults : signature.isNumberless = true) (constants : p.isNumberless = true) :
      Numberless (p.action turns name id signature)

variable {a : Action}

theorem Numberless.signature (h : a.Numberless) : a.signature.isNumberless = true := by
  cases h with
  | recipe turns name id defaults constants => exact defaults
  | _ => rfl

theorem Numberless.renamed (h : a.Numberless) {b c : Bound} (hb : b.Renamed R c) :
    Script.Renamed Value.Renamed R (a.body b) (a.body c) := by
  cases h with
  | skip => exact .done (.atom _ rfl)
  | string =>
    change Script.Renamed Value.Renamed R (.done (.text b.text)) (.done (.text c.text))
    rw [hb.text]
    exact .done (.atom _ rfl)
  | integer =>
    change Script.Renamed Value.Renamed R (Recipe.ofNumeral (Numeral.read 10 b.text))
      (Recipe.ofNumeral (Numeral.read 10 c.text))
    rw [hb.text]
    exact Recipe.renamed_ofNumeral _
  | word =>
    change Script.Renamed Value.Renamed R (.done (.word b.text)) (.done (.word c.text))
    rw [hb.text]
    exact .done (.atom _ rfl)
  | recipe turns name id defaults constants => exact Recipe.renamed_action constants hb

end Action

/-- A table of such actions takes the numbers of errors for names. -/
theorem RuleTable.indifferent_of_numberless {t : RuleTable} (h : ∀ r ∈ t.rules, r.action.Numberless) :
    t.Indifferent := fun r hr =>
  CompiledRule.indifferent_of_body (h r hr).signature fun _ _ _ hb => (h r hr).renamed hb

end FirstMatch
