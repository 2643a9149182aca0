import FirstMatch.Proofs.EndAnchors
import FirstMatch.Regex.Source

/-!
Reading a source beside the one in which dollars are replaced. As long as just the dollars that mean
the end of the input are replaced, both are read alike. After another one, reading the second is refused
or meets a dollar in the same sense that is left.
-/

namespace FirstMatch

open EndAnchor (Replaces setsMultiline)

namespace Regex

variable {source : List Char} {α β γ δ : Type}

/-- A dollar is replaced just if it is read as the end of the input. -/
def Dollar.InStep (source : List Char) (d : Dollar) : Prop :=
  Replaces source d.position ↔ d.role = .ending

/-- The multiline flag is among the flags only where the source is seen to set it. -/
def Announced (source : List Char) (flags : List Flag) : Prop :=
  .multiline ∈ flags → setsMultiline source = true

theorem Announced.append {flags on : List Flag} (h : Announced source flags)
    (hon : Announced source on) : Announced source (flags ++ on) :=
  fun hm => (List.mem_append.mp hm).elim h hon

theorem Announced.scopeFlags {flags on : List Flag} (h : Announced source flags)
    (hon : Announced source on) (off : List Flag) : Announced source (scopeFlags flags on off) := by
  intro hm
  unfold Regex.scopeFlags at hm
  rcases List.mem_append.mp (List.mem_filter.mp hm).1 with hm | hm
  · split at hm
    · exact h (List.mem_filter.mp hm).1
    · exact h hm
  · exact hon hm

/-- States on both sides, with the same parts read and corresponding rests. -/
structure State.Paired (source : List Char) (s t : State) : Prop where
  within : s.rest <:+ source
  announced : Announced source s.flags
  rest : Rewritten (Replaces source) s.position s.rest t.rest
  flags : t.flags = s.flags
  widths : t.widths = s.widths
  names : t.names = s.names
  awaited : t.awaited.map (·.1) = s.awaited.map (·.1)
  lookbehind : t.lookbehind = s.lookbehind
  dialect : t.dialect = s.dialect

namespace State.Paired

variable {s t : State}

theorem nextGroup (h : s.Paired source t) : t.nextGroup = s.nextGroup := by
  simp only [State.nextGroup, h.widths]

theorem isClosed (h : s.Paired source t) (i : Nat) : t.isClosed i = s.isClosed i := by
  simp only [State.isClosed, State.groupWidth, h.widths]

theorem width (h : s.Paired source t) (r : Regex) : t.width r = s.width r := by
  simp only [State.width, State.groupWidth, h.widths]

/-- A group that a condition asks about is noted on both sides, at positions that may differ. -/
theorem await (h : s.Paired source t) (group n m : Nat) :
    State.Paired source
      (if s.awaited.any fun g => g.1 == group then s
        else { s with awaited := s.awaited ++ [(group, n)] })
      (if t.awaited.any fun g => g.1 == group then t
        else { t with awaited := t.awaited ++ [(group, m)] }) := by
  have hany : (t.awaited.any fun g => g.1 == group) = s.awaited.any fun g => g.1 == group := by
    have hmap := congrArg (List.any · (· == group)) h.awaited
    rw [List.any_map, List.any_map] at hmap
    exact hmap
  rw [hany]
  split
  · exact h
  · refine ⟨h.within, h.announced, h.rest, h.flags, h.widths, h.names, ?_, h.lookbehind,
      h.dialect⟩
    rw [List.map_append, List.map_append, h.awaited]
    rfl

end State.Paired

/-- What reading comes to on the right, beside a result on the left. -/
inductive Beside (source : List Char) (R : α → β → Prop) (a : α) (s : State) (ds : List Dollar)
    (y : Noted (β × State)) : Prop
  | alike {b : β} {t : State} {es : List Dollar} (inStep : ∀ d ∈ ds, d.InStep source)
      (result : y = .ok ((b, t), es)) (none_left : ∀ e ∈ es, e.role ≠ .ending) (related : R a b)
      (paired : s.Paired source t)
  | astray (outOfStep : ∃ d ∈ ds, ¬d.InStep source)
      (left : ∀ b t es, y = .ok ((b, t), es) → ∃ e ∈ es, e.role = .ending)

/-- Whatever the left comes to, the right comes to a related result or goes astray. -/
def Agrees (source : List Char) (R : α → β → Prop) (x : Noted (α × State))
    (y : Noted (β × State)) : Prop :=
  ∀ a s ds, x = .ok ((a, s), ds) → Beside source R a s ds y

/-- Reading goes on alike from paired states. -/
def Follows (source : List Char) (R : α → β → Prop) (f : Reader α) (g : Reader β) : Prop :=
  ∀ s t, s.Paired source t → Agrees source R (f s) (g t)

/-- Reading goes on alike from paired states before which the given characters stand. -/
def FollowsOpened (source opening : List Char) (R : α → β → Prop) (f : Reader α) (g : Reader β) :
    Prop :=
  ∀ s t, s.Paired source t → opening ++ s.rest <:+ source → Agrees source R (f s) (g t)

/-- Nothing is noted on either side. -/
theorem Beside.silent {R : α → β → Prop} {a : α} {b : β} {s t : State} {y : Noted (β × State)}
    (h : R a b) (hst : s.Paired source t) (hy : y = .ok ((b, t), [])) :
    Beside source R a s [] y :=
  .alike (fun _ hd => absurd hd List.not_mem_nil) hy (fun _ he => absurd he List.not_mem_nil) h hst

/-- What has been read on the left may be used in what follows. -/
theorem Agrees.bind_reading {R : α → β → Prop} {S : γ → δ → Prop} {f : Reader α} {g : Reader β}
    {k : α → Reader γ} {l : β → Reader δ} {s t : State} (h : Agrees source R (f s) (g t))
    (hk : ∀ a b u v before, f s = .ok ((a, u), before) → R a b → u.Paired source v →
      Agrees source S (k a u) (l b v)) :
    Agrees source S ((f >>= k) s) ((g >>= l) t) := by
  intro c u ds hc
  obtain ⟨a, v, before, after, hf, hka, rfl⟩ := Reader.bind_eq_ok hc
  cases h a v before hf with
  | alike inStep result none_left related paired =>
    cases hk _ _ _ _ _ hf related paired c u after hka with
    | alike inStep' result' none_left' related' paired' =>
      refine .alike ?_ (Reader.bind_of_ok result result') ?_ related' paired'
      · intro d hd
        rcases List.mem_append.mp hd with hd | hd
        · exact inStep d hd
        · exact inStep' d hd
      · intro e he
        rcases List.mem_append.mp he with he | he
        · exact none_left e he
        · exact none_left' e he
    | astray outOfStep left =>
      obtain ⟨d, hd, hout⟩ := outOfStep
      refine .astray ⟨d, List.mem_append_right before hd, hout⟩ ?_
      intro b' t' es' heq
      obtain ⟨b'', v'', before'', after'', hg, hl, rfl⟩ := Reader.bind_eq_ok heq
      rw [result] at hg
      cases hg
      obtain ⟨e, he, hrole⟩ := left _ _ _ hl
      exact ⟨e, List.mem_append_right _ he, hrole⟩
  | astray outOfStep left =>
    obtain ⟨d, hd, hout⟩ := outOfStep
    refine .astray ⟨d, List.mem_append_left after hd, hout⟩ ?_
    intro b' t' es' heq
    obtain ⟨b'', v'', before'', after'', hg, -, rfl⟩ := Reader.bind_eq_ok heq
    obtain ⟨e, he, hrole⟩ := left _ _ _ hg
    exact ⟨e, List.mem_append_left _ he, hrole⟩

theorem Agrees.bind {R : α → β → Prop} {S : γ → δ → Prop} {f : Reader α} {g : Reader β}
    {k : α → Reader γ} {l : β → Reader δ} {s t : State} (h : Agrees source R (f s) (g t))
    (hk : ∀ a b u v, R a b → u.Paired source v → Agrees source S (k a u) (l b v)) :
    Agrees source S ((f >>= k) s) ((g >>= l) t) :=
  h.bind_reading fun a b u v _ _ hab huv => hk a b u v hab huv

/-- The same result on both sides, from which both go on. -/
theorem Agrees.after {S : γ → δ → Prop} {f g : Reader α} {k : α → Reader γ} {l : α → Reader δ}
    {s t : State} (h : Agrees source Eq (f s) (g t))
    (hk : ∀ a u v, u.Paired source v → Agrees source S (k a u) (l a v)) :
    Agrees source S ((f >>= k) s) ((g >>= l) t) :=
  h.bind fun a _ u v hab huv => hab ▸ hk a u v huv

section

variable {R : α → β → Prop} {S : γ → δ → Prop}

theorem follows_bind {f : Reader α} {g : Reader β} {k : α → Reader γ} {l : β → Reader δ}
    (h : Follows source R f g) (hk : ∀ a b, R a b → Follows source S (k a) (l b)) :
    Follows source S (f >>= k) (g >>= l) :=
  fun s t hst => (h s t hst).bind fun a b u v hab huv => hk a b hab u v huv

theorem follows_after {f g : Reader α} {k : α → Reader γ} {l : α → Reader δ}
    (h : Follows source Eq f g) (hk : ∀ a, Follows source S (k a) (l a)) :
    Follows source S (f >>= k) (g >>= l) :=
  follows_bind h fun a _ hab => hab ▸ hk a

theorem follows_pure {a : α} {b : β} (h : R a b) : Follows source R (pure a) (pure b) := by
  intro s t hst a' s' ds heq
  cases heq
  exact .silent h hst rfl

/-- Where the left is refused, nothing is asked of the right. -/
theorem follows_throw (flaw : Flaw) (g : Reader β) :
    Follows source R (throw flaw : Reader α) g := by
  intro s t _ a s' ds heq
  cases heq

theorem follows_failAt (p : Problem) (n : Nat) (g : Reader β) :
    Follows source R (Reader.failAt p n : Reader α) g := follows_throw _ g

theorem follows_failBack (p : Problem) (n : Nat) (g : Reader β) :
    Follows source R (Reader.failBack p n : Reader α) g := by
  intro s t _ a s' ds heq
  cases heq

theorem follows_get : Follows source (State.Paired source) (get : Reader State) get := by
  intro s t hst a s' ds heq
  cases heq
  exact .silent hst hst rfl

theorem follows_modify {p q : State → State}
    (h : ∀ s t, s.Paired source t → (p s).Paired source (q t)) :
    Follows source (fun _ _ => True) (modify p : Reader Unit) (modify q) := by
  intro s t hst a s' ds heq
  cases heq
  exact .silent trivial (h s t hst) rfl

end

namespace Reader

variable {S : α → β → Prop} {s t : State}

theorem agrees_seek (hst : s.Paired source t) {n m : Nat} {cs ds : List Char}
    (hwithin : cs <:+ source) (h : Rewritten (Replaces source) n cs ds) :
    Agrees source (fun _ _ => True) (seek cs n s) (seek ds m t) := by
  intro a u es heq
  unfold seek at heq ⊢
  split at heq
  · cases heq
  · next hne =>
    cases heq
    rw [if_neg (mt h.lone_iff.mp hne)]
    exact .silent (t := { t with rest := ds, position := m }) trivial
      ⟨hwithin, hst.announced, h, hst.flags, hst.widths, hst.names, hst.awaited,
        hst.lookbehind, hst.dialect⟩ rfl

theorem agrees_skip (hst : s.Paired source t) {n m : Nat}
    (h : Rewritten (Replaces source) (s.position + n) (s.rest.drop n) (t.rest.drop m)) :
    Agrees source (fun _ _ => True) (skip n s) (skip m t) := by
  unfold skip
  refine Agrees.bind (R := fun a b => a = s ∧ b = t) ?_ ?_
  · intro a u ds heq
    cases heq
    exact .silent ⟨rfl, rfl⟩ hst rfl
  · rintro a b u v ⟨rfl, rfl⟩ huv
    exact agrees_seek huv ((List.drop_suffix n a.rest).trans hst.within) h

/-- What comes next is the same on both sides, or a dollar and what stands in its place. -/
inductive Upcoming (source : List Char) (n : Nat) : List Char → List Char → Prop
  | none : Upcoming source n [] []
  | same {cs ds : List Char} (u : Token) (left : lookahead cs = some u)
      (right : lookahead ds = some u) (kept : u = .plain '$' → ¬Replaces source n)
      (tail : Rewritten (Replaces source) (n + u.text.length) (cs.drop u.text.length)
        (ds.drop u.text.length)) : Upcoming source n cs ds
  | dollar {cs ds : List Char} (here : Replaces source n) (tail : Rewritten (Replaces source) (n + 1) cs ds) :
      Upcoming source n ('$' :: cs) ('\\' :: 'Z' :: ds)

theorem upcoming {n : Nat} {cs ds : List Char} (h : Rewritten (Replaces source) n cs ds) :
    Upcoming source n cs ds := by
  cases h with
  | nil => exact .none
  | lone => exact .same (.plain '\\') rfl rfl nofun .nil
  | escape c tail => exact .same (.escape c) rfl rfl nofun tail
  | dollar here tail => exact .dollar here tail
  | @plain _ cs ds c ne kept tail =>
    have hlook (xs : List Char) : lookahead (c :: xs) = some (.plain c) := by
      unfold lookahead
      split
      · next heq => cases heq
      · next heq =>
        cases heq
        exact absurd rfl ne
      · next heq =>
        cases heq
        rfl
    exact .same (.plain c) (hlook cs) (hlook ds) (fun hc => kept (Token.plain.inj hc)) tail

theorem rest_of_lookahead {cs : List Char} {u : Token} (h : lookahead cs = some u) :
    cs = u.text ++ cs.drop u.text.length := by
  unfold lookahead at h
  split at h <;> cases h <;> rfl

theorem peek_apply (s : State) : peek s = .ok ((lookahead s.rest, s), []) := rfl

theorem next_of_none (h : lookahead s.rest = none) : next s = .ok ((none, s), []) := by
  unfold next
  rw [bind_silent (peek_apply s), h]
  rfl

/-- The state after the next token. -/
def passed (s : State) (u : Token) : State :=
  { s with rest := s.rest.drop u.text.length, position := s.position + u.text.length }

theorem skip_of_ne {n : Nat} (h : s.rest.drop n ≠ ['\\']) :
    skip n s = .ok (((), { s with rest := s.rest.drop n, position := s.position + n }), []) := by
  unfold skip seek
  rw [get_bind, if_neg h]
  rfl

theorem skip_of_eq {n : Nat} (h : s.rest.drop n = ['\\']) :
    skip n s = .error (.located .loneBackslash (s.position + n)) := by
  unfold skip seek
  rw [get_bind, if_pos h]
  rfl

theorem next_of_some {u : Token} (h : lookahead s.rest = some u)
    (hne : s.rest.drop u.text.length ≠ ['\\']) : next s = .ok ((some u, passed s u), []) := by
  unfold next
  rw [bind_silent (peek_apply s), h]
  dsimp only
  rw [bind_silent (skip_of_ne hne)]
  rfl

theorem next_of_lone {u : Token} (h : lookahead s.rest = some u)
    (hlone : s.rest.drop u.text.length = ['\\']) :
    next s = .error (.located .loneBackslash (s.position + u.text.length)) := by
  unfold next
  rw [bind_silent (peek_apply s), h]
  dsimp only
  rw [bind_of_error (skip_of_eq hlone)]

/-- Reading a token on both sides. -/
theorem agrees_next {k : Option Token → Reader α} {l : Option Token → Reader β}
    (hst : s.Paired source t)
    (hnone : Agrees source S (k none s) (l none t))
    (hsame : ∀ u p q, p.Paired source q → s.rest = u.text ++ p.rest →
      (u = .plain '$' → ¬Replaces source (p.position - 1)) →
      Agrees source S (k (some u) p) (l (some u) q))
    (hdollar : ∀ p q, p.Paired source q → Replaces source (p.position - 1) →
      Agrees source S (k (some (.plain '$')) p) (l (some (.escape 'Z')) q)) :
    Agrees source S ((next >>= k) s) ((next >>= l) t) := by
  have hrest := upcoming hst.rest
  generalize hcs : s.rest = cs at hrest
  generalize hds : t.rest = ds at hrest
  cases hrest with
  | none =>
    rw [bind_silent (next_of_none (by rw [hcs]; rfl)), bind_silent (next_of_none (by rw [hds]; rfl))]
    exact hnone
  | same u left right kept tail =>
    subst hcs hds
    by_cases hlone : s.rest.drop u.text.length = ['\\']
    · rw [bind_of_error (next_of_lone left hlone)]
      intro a p es heq
      cases heq
    · rw [bind_silent (next_of_some left hlone),
        bind_silent (next_of_some right (mt tail.lone_iff.mp hlone))]
      refine hsame u _ _ ⟨(List.drop_suffix _ s.rest).trans hst.within, hst.announced, tail, hst.flags,
        hst.widths, hst.names, hst.awaited, hst.lookbehind, hst.dialect⟩ (rest_of_lookahead left) ?_
      rintro rfl
      exact kept rfl
  | @dollar cs ds here tail =>
    have hleft : lookahead s.rest = some (.plain '$') := by rw [hcs]; rfl
    have hright : lookahead t.rest = some (.escape 'Z') := by rw [hds]; rfl
    have hcs' : s.rest.drop (Token.plain '$').text.length = cs := by rw [hcs]; rfl
    have hds' : t.rest.drop (Token.escape 'Z').text.length = ds := by rw [hds]; rfl
    by_cases hlone : cs = ['\\']
    · rw [bind_of_error (next_of_lone hleft (hcs'.trans hlone))]
      intro a p es heq
      cases heq
    · rw [bind_silent (next_of_some hleft (by rwa [hcs'])),
        bind_silent (next_of_some hright (by rw [hds']; exact mt tail.lone_iff.mp hlone))]
      refine hdollar _ _ ⟨(List.drop_suffix _ s.rest).trans hst.within, hst.announced, ?_, hst.flags,
        hst.widths, hst.names, hst.awaited, hst.lookbehind, hst.dialect⟩ here
      change Rewritten (Replaces source) (s.position + 1) (s.rest.drop _) (t.rest.drop _)
      rwa [hcs', hds']

theorem follows_next {k : Option Token → Reader α} {l : Option Token → Reader β}
    (hnone : Follows source S (k none) (l none))
    (hsame : ∀ u, Follows source S (k (some u)) (l (some u)))
    (hdollar : Follows source S (k (some (.plain '$'))) (l (some (.escape 'Z')))) :
    Follows source S (next >>= k) (next >>= l) :=
  fun s t hst => agrees_next hst (hnone s t hst) (fun u p q h _ _ => hsame u p q h)
    fun p q h _ => hdollar p q h

theorem follows_peek {k : Option Token → Reader α} {l : Option Token → Reader β}
    (hnone : Follows source S (k none) (l none))
    (hsame : ∀ u, Follows source S (k (some u)) (l (some u)))
    (hdollar : Follows source S (k (some (.plain '$'))) (l (some (.escape 'Z')))) :
    Follows source S (peek >>= k) (peek >>= l) := by
  intro s t hst
  rw [bind_silent (peek_apply s), bind_silent (peek_apply t)]
  have hrest := upcoming hst.rest
  generalize hcs : s.rest = cs at hrest
  generalize hds : t.rest = ds at hrest
  cases hrest with
  | none => exact hnone s t hst
  | same u left right kept tail =>
    rw [left, right]
    exact hsame u s t hst
  | dollar here tail => exact hdollar s t hst

/-- What is asked of the next token is answered alike, unless it tells a dollar from its escape. -/
theorem follows_ahead {test : Option Token → Prop} [DecidablePred test] {f f' : Reader α}
    {g g' : Reader β} (hplain : ¬test (some (.plain '$'))) (hescape : ¬test (some (.escape 'Z')))
    (hyes : Follows source S f g) (hno : Follows source S f' g') :
    Follows source S (peek >>= fun u => if test u then f else f')
      (peek >>= fun u => if test u then g else g') := by
  have hsame (u : Option Token) :
      Follows source S (if test u then f else f') (if test u then g else g') := by
    split
    · exact hyes
    · exact hno
  refine follows_peek (hsame none) (fun u => hsame (some u)) ?_
  rw [if_neg hplain, if_neg hescape]
  exact hno

/-- Positions differ on the two sides. -/
theorem follows_tell : Follows source (fun _ _ => True) tell tell :=
  follows_bind follows_get fun _ _ _ => follows_pure trivial

/-- Another character than the dollar is accepted on both sides or on neither. -/
theorem follows_accept {c : Char} (hc : c ≠ '$') : Follows source Eq (accept c) (accept c) := by
  intro s t hst
  unfold accept
  rw [bind_silent (peek_apply s), bind_silent (peek_apply t)]
  have hrest := upcoming hst.rest
  generalize hcs : s.rest = cs at hrest
  generalize hds : t.rest = ds at hrest
  cases hrest with
  | none => exact follows_pure rfl s t hst
  | same u left right kept tail =>
    subst hcs hds
    rw [left, right]
    split
    · next hu =>
      cases hu
      exact (agrees_skip hst tail).bind fun _ _ p q _ hpq => follows_pure rfl p q hpq
    · exact follows_pure rfl s t hst
  | dollar here tail =>
    rw [if_neg, if_neg]
    · exact follows_pure rfl s t hst
    · exact nofun
    · intro h
      cases h
      exact hc rfl

/-- What has been accepted stood before the rest. -/
theorem rest_of_accept {c : Char} {ds : List Dollar} (h : accept c s = .ok ((true, t), ds)) :
    s.rest = c :: t.rest := by
  unfold accept at h
  rw [bind_silent (peek_apply s)] at h
  split at h
  · next hlook =>
    by_cases hlone : s.rest.drop 1 = ['\\']
    · rw [bind_of_error (skip_of_eq hlone)] at h
      cases h
    · rw [bind_silent (skip_of_ne hlone)] at h
      cases h
      exact rest_of_lookahead hlook
  · cases h

/-- Characters that are neither dollars nor backslashes are taken on both sides. -/
theorem follows_takeWhile {test : Char → Bool} (hdollar : test '$' = false)
    (hback : test '\\' = false) (limit : Nat) :
    Follows source Eq (takeWhile limit test) (takeWhile limit test) := by
  intro s t hst
  obtain ⟨hrun, htail⟩ := hst.rest.takeWhile hdollar hback limit
  unfold takeWhile
  rw [get_bind, get_bind, hrun]
  exact (agrees_skip hst htail).bind fun _ _ p q _ hpq => follows_pure rfl p q hpq

theorem follows_takeAll {test : Char → Bool} (hdollar : test '$' = false)
    (hback : test '\\' = false) : Follows source Eq (takeAll test) (takeAll test) := by
  intro s t hst
  -- The rest on the right may be longer, so both sides are compared at its length.
  have hleft : takeAll test s = takeWhile t.rest.length test s := by
    have hlong : s.rest.take s.rest.length = s.rest.take t.rest.length := by
      rw [List.take_length, List.take_of_length_le hst.rest.length_le]
    unfold takeAll takeWhile
    rw [get_bind, get_bind,
      get_bind, hlong]
  have hright : takeAll test t = takeWhile t.rest.length test t := by
    unfold takeAll
    rw [get_bind]
  rw [hleft, hright]
  exact follows_takeWhile hdollar hback _ s t hst

/-- Names are the same on both sides, unless a dollar has come into them. -/
def SameName (a b : List Char) : Prop := b = a ∨ '$' ∈ a ∧ b ≠ []

theorem SameName.ne_nil {a b : List Char} (h : SameName a b) (ha : a ≠ []) : b ≠ [] := by
  rcases h with rfl | ⟨-, hb⟩
  · exact ha
  · exact hb

theorem SameName.append {a b : List Char} (h : SameName a b) (cs : List Char) :
    SameName (a ++ cs) (b ++ cs) := by
  rcases h with rfl | ⟨ha, hb⟩
  · exact .inl rfl
  · exact .inr ⟨List.mem_append_left cs ha, List.append_ne_nil_of_left_ne_nil hb cs⟩

theorem follows_nameFrom {closer : Char} (hcloser : closer ≠ '$') (what : String) {fuel fuel' : Nat}
    (hfuel : fuel ≤ fuel') {a b : List Char} (hab : SameName a b) :
    Follows source SameName (nameFrom closer what fuel a) (nameFrom closer what fuel' b) := by
  induction fuel generalizing fuel' a b with
  | zero => exact follows_throw _ _
  | succ fuel ih =>
    obtain ⟨fuel', rfl⟩ : ∃ k, fuel' = k + 1 := Nat.exists_eq_succ_of_ne_zero (by omega)
    unfold nameFrom
    refine follows_next ?_ (fun u => ?_) ?_
    · dsimp only
      split
      · exact follows_failBack _ _ _
      · exact follows_failBack _ _ _
    · dsimp only
      split
      · split
        · exact follows_failBack _ _ _
        · next hne =>
          rw [if_neg (hab.ne_nil hne)]
          exact follows_pure hab
      · exact ih (by omega) (hab.append _)
    · dsimp only
      rw [if_neg (by simpa using hcloser.symm), if_neg nofun]
      exact ih (by omega) (.inr ⟨by simp [Token.text], by simp [Token.text]⟩)

theorem follows_name {closer : Char} (hcloser : closer ≠ '$') (what : String) :
    Follows source SameName (name closer what) (name closer what) := by
  intro s t hst
  unfold name
  rw [get_bind, get_bind]
  have hlength := hst.rest.length_le
  exact follows_nameFrom hcloser what (by omega) (.inl rfl) s t hst

end Reader

end Regex

end FirstMatch
