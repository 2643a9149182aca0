import FirstMatch.Proofs.TameScripts

/-!
Recipes are tame as far as they read no new text: their only loops collect the tokens of a lexer on the
cursor of the action, and these end with the tokens.
-/

namespace FirstMatch

namespace Recipe

open Script (request tame_bind tame_ite tame_request tame_iterate)

mutual

/-- Whether a recipe reads its text again with another lexer. -/
def readsText : Recipe → Bool
  | ifText _ yes no => yes.readsText || no.readsText
  | ifKeyword _ yes no => yes.readsText || no.readsText
  | steps all => readsTextIn all
  | items all => readsTextIn all
  | guarded body other => body.readsText || other.readsText
  | balance _ closed _ => closed.readsText
  | tokenize .. => true
  | _ => false

def readsTextIn : List Recipe → Bool
  | [] => false
  | r :: rs => r.readsText || readsTextIn rs

end

variable {n m turns : Nat} {b : Bound}

theorem tame_cursorOf (hb : ∀ i, b.cursor? = some i → i < n) :
    (cursorOf b).Tame n (fun i _ => i < n) m := by
  unfold cursorOf
  cases h : b.cursor? with
  | none => trivial
  | some i => exact hb i h

/-- Asking for something on the cursor of the action. -/
theorem tame_onCursor {α : Type} {Q : α → Nat → Prop} (hb : ∀ i, b.cursor? = some i → i < n)
    {k : Nat → Script α} (hk : ∀ i l, i < n → l ≤ m → (k i).Tame n Q l) :
    (cursorOf b >>= k).Tame n Q m :=
  Script.Tame.bind ((tame_cursorOf hb).le.mono fun i l h => hk i l h.1 h.2)

/-- One request for the cursor of the action, which is all there is to it. -/
theorem tame_askCursor {α : Type} (hb : ∀ i, b.cursor? = some i → i < n) {q : Nat → Request}
    (hq : ∀ i, i < n → (q i).Stays n) (k : (i : Nat) → (q i).Answer → α) :
    (cursorOf b >>= fun i => request (q i) >>= fun a => pure (k i a)).Tame n (fun _ _ => True) m :=
  tame_onCursor hb fun i _ hi _ =>
    Script.Tame.bind (tame_request (hq i hi) fun _ _ _ _ => trivial)

/-- Goes on in one of two ways. -/
theorem tame_branch {α : Type} {Q : α → Nat → Prop} {p : Script Bool} {yes no : Script α}
    (h : p.Tame n (fun _ _ => True) m) (hyes : ∀ l, l ≤ m → yes.Tame n Q l)
    (hno : ∀ l, l ≤ m → no.Tame n Q l) :
    (p >>= fun held => if held then yes else no).Tame n Q m :=
  tame_bind h fun _ l hl => tame_ite (hyes l hl) (hno l hl)

theorem tame_look (hb : ∀ i, b.cursor? = some i → i < n) :
    (look b).Tame n (fun _ _ => True) m :=
  tame_onCursor hb fun _ _ _ _ => tame_request trivial fun _ _ _ _ => trivial

theorem tame_keywordOf (name : String) : (keywordOf b name).Tame n (fun _ _ => True) m := by
  unfold keywordOf
  cases b.keywords.lookup name <;> trivial

theorem tame_holds (container v : Value) : (holds container v).Tame n (fun _ _ => True) m := by
  unfold holds
  split <;> trivial

theorem tame_shown (v : Value) : (shown v).Tame n (fun _ _ => True) m := by
  unfold shown
  split
  · exact Script.Tame.bind (tame_request trivial fun _ _ _ _ => trivial)
  · trivial

theorem tame_shownAll (vs : List Value) : (shownAll vs).Tame n (fun _ _ => True) m := by
  induction vs generalizing m with
  | nil => trivial
  | cons v vs ih =>
    exact tame_bind (tame_shown v) fun _ _ _ => tame_bind ih fun _ _ _ => trivial

theorem tame_shownFields (fields : Arguments) :
    (shownFields fields).Tame n (fun _ _ => True) m := by
  induction fields generalizing m with
  | nil => trivial
  | cons field fields ih =>
    exact tame_bind (tame_shown field.2) fun _ _ _ => tame_bind ih fun _ _ _ => trivial

theorem tame_joinFrom (index : Nat) (vs : List Value) :
    (joinFrom index vs).Tame n (fun _ _ => True) m := by
  induction vs generalizing index m with
  | nil => trivial
  | cons v vs ih =>
    unfold joinFrom
    split
    · trivial
    · next heq =>
      cases heq
      exact tame_bind (ih _) fun _ _ _ => trivial
    · trivial

/-- Collecting goes on after a token only. -/
theorem tame_collect (hb : ∀ i, b.cursor? = some i → i < n) (hm : m < turns) (run : SubRun) :
    (collect turns run b).Tame n (fun _ _ => True) m := by
  refine tame_onCursor hb fun i l hi hl => Script.Tame.bind ?_
  refine tame_request hi fun stream k hk _ => ?_
  refine tame_bind (tame_iterate (fun kept k _ => ?_) (by omega)) fun kept _ _ => ?_
  · refine Script.Tame.bind (tame_request trivial fun e l hl hlt => ?_)
    cases e with
    | none =>
      dsimp only
      split <;> trivial
    | some pair =>
      dsimp only
      refine tame_ite trivial ?_
      exact tame_ite trivial (hlt rfl)
  · refine tame_ite ?_ trivial
    exact tame_bind (tame_joinFrom 0 _) fun _ _ _ => trivial

theorem tame_balanced (hb : ∀ i, b.cursor? = some i → i < n) (hm : m < turns)
    (lexer unterminated : String) :
    (balanced turns lexer unterminated b).Tame n (fun _ _ => True) m := by
  refine tame_onCursor hb fun i l hi hl => Script.Tame.bind ?_
  refine tame_request hi fun stream k hk _ => ?_
  refine tame_iterate (fun depth k _ => ?_) (by omega)
  refine Script.Tame.bind (tame_request trivial fun e l hl hlt => ?_)
  cases e with
  | none => trivial
  | some pair =>
    dsimp only
    split
    · split
      · trivial
      · exact hlt rfl
    · trivial

theorem tame_stepped (hb : ∀ i, b.cursor? = some i → i < n) (engine : String)
    (context : Arguments) : (stepped engine context b).Tame n (fun _ _ => True) m := by
  refine tame_onCursor hb fun i l hi hl => Script.Tame.bind ?_
  refine tame_request hi fun o k hk _ => ?_
  cases o with
  | failed f => exact Script.Tame.bind (tame_request trivial fun _ _ _ _ => trivial)
  | _ => trivial

theorem tame_int (base : Value) (turns calls : Nat) :
    ((int base).script turns b calls).Tame n (fun _ _ => True) m := by
  unfold script ofNumeral
  split
  · split <;> trivial
  · trivial

theorem tame_arguments (turns calls : Nat) :
    (arguments.script turns b calls).Tame n (fun _ _ => True) m := by
  unfold script
  exact tame_bind (tame_shownAll _) fun _ _ _ => tame_bind (tame_shownFields _) fun _ _ _ => trivial

theorem tame_streamNext (name : String) (turns calls : Nat) :
    ((streamNext name).script turns b calls).Tame n (fun _ _ => True) m := by
  unfold script
  refine Script.Tame.bind (tame_request trivial fun j _ _ _ => ?_)
  refine Script.Tame.bind (tame_request trivial fun e _ _ _ => ?_)
  cases e <;> trivial

mutual

/-- A recipe that reads no new text is tame if its loops have more turns than there are matches. -/
theorem tame_script (r : Recipe) (hr : r.readsText = false)
    (hb : ∀ i, b.cursor? = some i → i < n) {m : Nat} (hm : m < turns) (calls : Nat) :
    (r.script turns b calls).Tame n (fun _ _ => True) m := by
  cases r with
  | text => trivial
  | const v => trivial
  | word => trivial
  | skip => trivial
  | tag label => trivial
  | int base => exact tame_int base turns calls
  | size => trivial
  | arguments => exact tame_arguments turns calls
  | keyword name => exact tame_keywordOf name
  | callCount => trivial
  | raise kind message => trivial
  | ifText among yes no =>
    obtain ⟨hyes, hno⟩ := Bool.or_eq_false_iff.mp hr
    unfold script
    exact tame_branch (tame_holds _ _)
      (fun l hl => tame_script yes hyes hb (Nat.lt_of_le_of_lt hl hm) calls)
      fun l hl => tame_script no hno hb (Nat.lt_of_le_of_lt hl hm) calls
  | ifKeyword name yes no =>
    obtain ⟨hyes, hno⟩ := Bool.or_eq_false_iff.mp hr
    unfold script
    refine tame_bind (tame_keywordOf name) fun v k hk => ?_
    exact tame_branch (tame_holds _ _) (fun l hl => tame_script yes hyes hb (by omega) calls)
      fun l hl => tame_script no hno hb (by omega) calls
  | steps all =>
    unfold script
    exact tame_bind (tame_scripts all hr hb hm calls) fun _ _ _ => trivial
  | items all =>
    unfold script
    exact tame_bind (tame_scripts all hr hb hm calls) fun _ _ _ => trivial
  | guarded body other =>
    obtain ⟨hbody, hother⟩ := Bool.or_eq_false_iff.mp hr
    unfold script
    exact Script.tame_orElse (tame_script body hbody hb hm calls) fun k hk =>
      tame_script other hother hb (by omega) calls
  | advance k =>
    unfold script
    exact tame_askCursor (q := fun i => .advance i k) hb (fun _ hi => hi) _
  | peek =>
    unfold script
    exact tame_bind (tame_look hb) fun _ _ _ => trivial
  | remaining =>
    unfold script
    exact tame_bind (tame_look hb) fun _ _ _ => trivial
  | mark =>
    unfold script
    exact tame_askCursor (q := .mark) hb (fun _ hi => hi) _
  | standing =>
    unfold script
    exact tame_bind (tame_look hb) fun _ _ _ => trivial
  | sameCursor name =>
    unfold script
    refine Script.Tame.bind (tame_request trivial fun _ _ _ _ => ?_)
    exact tame_onCursor hb fun i l hi _ => trivial
  | sub run => exact tame_collect hb hm run
  | balance lexer closed unterminated =>
    unfold script
    exact tame_bind (tame_balanced hb hm lexer unterminated) fun _ l hl =>
      tame_script closed hr hb (by omega) calls
  | step engine context => exact tame_stepped hb engine context
  | streamNext name => exact tame_streamNext name turns calls
  | tokenize lexer context => cases hr

theorem tame_scripts (rs : List Recipe) (hrs : readsTextIn rs = false)
    (hb : ∀ i, b.cursor? = some i → i < n) {m : Nat} (hm : m < turns) (calls : Nat) :
    (scripts turns b calls rs).Tame n (fun _ _ => True) m := by
  cases rs with
  | nil => trivial
  | cons r rs =>
    obtain ⟨hr, hrs⟩ := Bool.or_eq_false_iff.mp hrs
    unfold scripts
    refine tame_bind (tame_script r hr hb hm calls) fun _ l hl => ?_
    exact tame_bind (tame_scripts rs hrs hb (by omega) calls) fun _ _ _ => trivial

end

/-- What an action does that follows such a recipe. -/
theorem tame_action {name : String} {id : Nat} {signature : Signature} {r : Recipe}
    (hr : r.readsText = false) (hb : ∀ i, b.cursor? = some i → i < n) {m : Nat} (hm : m < turns) :
    ((action turns name id signature r).body b).Tame n (fun _ _ => True) m :=
  Script.Tame.bind (tame_request trivial fun calls _ hk _ =>
    tame_script r hr hb (Nat.lt_of_le_of_lt hk hm) calls)

end Recipe

end FirstMatch
