import TapeMachine.Diagnostic
import TapeMachine.Proofs.Source.Instructions

/-!
# Translation and back

From a source to its operations there are two steps, and each of them can be undone: tokens are
written out as characters, and operations are translated back to tokens. **Going back and forth
loses the comments of a source and nothing else**, so going once is as good as going twice.

Between tokens and operations a row may hold anything. `Element.mapAll_cases` says how such a row
begins: with elements of the right kind, and then it ends or a foreign one comes. `Converts` is what
follows for the whole row; it is refused for its first foreign element, whatever else is in it.
-/

namespace TapeMachine

-- ── Rows of elements ─────────────────────────────────────────────────────────────

namespace Element

/-- The members of both kinds, words, and nothing. -/
inductive IsPlain : Element → Prop where
  | operation (op : Operation) : IsPlain (.operation op)
  | token (t : Token) : IsPlain (.token t)
  | words (s : String) : IsPlain (.bare (.words s))
  | empty : IsPlain .empty

/-- A conversion takes the elements of one kind and goes through a row of them in its order. The
    first foreign element is refused, and nothing is converted then. -/
structure Converts {α β : Type} (convert : List Element → Except Element (List α))
    (own : β → Element) (value : β → α) : Prop where
  succeeds_iff : ∀ es, (∃ as, convert es = .ok as) ↔ ∀ e ∈ es, ∃ b, e = own b
  in_order : ∀ es (as : List α), convert es = .ok as → as.length = es.length
    ∧ ∀ (i : Nat) b, es[i]? = some (own b) → as[i]? = some (value b)
  refuses_iff : ∀ es x, convert es = .error x ↔ ∃ front back, es = front ++ x :: back
    ∧ (∀ e ∈ front, ∃ b, e = own b) ∧ ∀ b, x ≠ own b
  reported : ∀ es x, convert es = .error x → (∀ e ∈ es, IsPlain e)
    → Diagnostic.ofForeign x = ⟨"KeyError", x.literal, none⟩

/-- An element that can be looked up is told as the key that is missing. -/
theorem IsPlain.ofForeign {x : Element} (h : IsPlain x) :
    Diagnostic.ofForeign x = ⟨"KeyError", x.literal, none⟩ := by
  cases h <;> rfl

section

variable {α β : Type} {f : Element → Option α} {own : β → Element} {value : β → α}

/-- Elements of the right kind are all turned into what they stand for. -/
theorem mapAll_own (hown : ∀ b, f (own b) = some (value b)) (bs : List β) :
    mapAll f (bs.map own) = .ok (bs.map value) := by
  induction bs with
  | nil => rfl
  | cons b bs ih => rw [List.map_cons, mapAll, hown, ih, List.map_cons]

/-- The first element of another kind is the one that is complained about. -/
theorem mapAll_foreign (hown : ∀ b, f (own b) = some (value b)) {x : Element} (hx : f x = none)
    (bs : List β) (es : List Element) : mapAll f (bs.map own ++ x :: es) = .error x := by
  induction bs with
  | nil => rw [List.map_nil, List.nil_append, mapAll, hx]
  | cons b bs ih => rw [List.map_cons, List.cons_append, mapAll, hown, ih]

/-- A row is of one kind altogether, or up to its first foreign element. -/
theorem mapAll_cases (hother : ∀ e, f e = none ∨ ∃ b, e = own b) (es : List Element) :
    (∃ bs : List β, es = bs.map own)
      ∨ ∃ (bs : List β) (x : Element) (rest : List Element),
        es = bs.map own ++ x :: rest ∧ f x = none := by
  induction es with
  | nil => exact Or.inl ⟨[], rfl⟩
  | cons e es ih =>
      rcases hother e with he | ⟨b, rfl⟩
      · exact Or.inr ⟨[], e, es, rfl, he⟩
      · rcases ih with ⟨bs, rfl⟩ | ⟨bs, x, rest, rfl, hx⟩
        · exact Or.inl ⟨b :: bs, rfl⟩
        · exact Or.inr ⟨b :: bs, x, rest, rfl, hx⟩

/-- Every element of such a row is of the right kind. -/
theorem exists_of_mem_map {bs : List β} {e : Element} (he : e ∈ bs.map own) : ∃ b, e = own b := by
  obtain ⟨b, -, rfl⟩ := List.mem_map.mp he
  exact ⟨b, rfl⟩

/-- A row of elements of the right kind is made of what they hold. -/
theorem exists_map_of_forall {es : List Element} (h : ∀ e ∈ es, ∃ b, e = own b) :
    ∃ bs : List β, es = bs.map own := by
  induction es with
  | nil => exact ⟨[], rfl⟩
  | cons e es ih =>
      obtain ⟨b, rfl⟩ := h e List.mem_cons_self
      obtain ⟨bs, rfl⟩ := ih fun e he => h e (List.mem_cons_of_mem _ he)
      exact ⟨b :: bs, rfl⟩

/-- A partial map that is defined on the elements of one kind converts the rows of this kind. -/
theorem converts_mapAll (hinj : ∀ b b', own b = own b' → b = b')
    (hown : ∀ b, f (own b) = some (value b)) (hother : ∀ e, f e = none ∨ ∃ b, e = own b) :
    Converts (mapAll f) own value := by
  have hforeign {x : Element} (hx : f x = none) (b : β) : x ≠ own b := by
    rintro rfl
    exact nomatch (hown b).symm.trans hx
  -- each field follows from how the row begins, and the map is known on both kinds of rows
  constructor
  · intro es
    constructor
    · rintro ⟨as, h⟩
      rcases mapAll_cases hother es with ⟨bs, rfl⟩ | ⟨bs, x, rest, rfl, hx⟩
      · exact fun e => exists_of_mem_map
      · exact nomatch (mapAll_foreign hown hx bs rest).symm.trans h
    · intro h
      obtain ⟨bs, rfl⟩ := exists_map_of_forall h
      exact ⟨_, mapAll_own hown bs⟩
  · intro es as h
    rcases mapAll_cases hother es with ⟨bs, rfl⟩ | ⟨bs, x, rest, rfl, hx⟩
    · obtain rfl := Except.ok.inj ((mapAll_own hown bs).symm.trans h)
      refine ⟨by rw [List.length_map, List.length_map], fun i b hb => ?_⟩
      rw [List.getElem?_map, Option.map_eq_some_iff] at hb ⊢
      obtain ⟨b', hb', heq⟩ := hb
      exact ⟨b', hb', congrArg value (hinj _ _ heq)⟩
    · exact nomatch (mapAll_foreign hown hx bs rest).symm.trans h
  · intro es x
    constructor
    · intro h
      rcases mapAll_cases hother es with ⟨bs, rfl⟩ | ⟨bs, y, rest, rfl, hy⟩
      · exact nomatch (mapAll_own hown bs).symm.trans h
      · obtain rfl := Except.error.inj ((mapAll_foreign hown hy bs rest).symm.trans h)
        exact ⟨_, rest, rfl, fun e => exists_of_mem_map, hforeign hy⟩
    · rintro ⟨front, back, rfl, hfront, hx⟩
      obtain ⟨bs, rfl⟩ := exists_map_of_forall hfront
      rcases hother x with hnone | ⟨b, hb⟩
      · exact mapAll_foreign hown hnone bs back
      · exact absurd hb (hx b)
  · intro es x h hplain
    rcases mapAll_cases hother es with ⟨bs, rfl⟩ | ⟨bs, y, rest, rfl, hy⟩
    · exact nomatch (mapAll_own hown bs).symm.trans h
    · obtain rfl := Except.error.inj ((mapAll_foreign hown hy bs rest).symm.trans h)
      exact (hplain y (List.mem_append_right _ List.mem_cons_self)).ofForeign

end

/-- Tokens are turned into the operations that they stand for. -/
theorem operationsOf_tokens (ts : List Token) :
    operationsOf (ts.map .token) = .ok (Operation.ofTokens ts) :=
  mapAll_own (f := operation?) (fun _ => rfl) ts

/-- Operations are turned into the tokens that stand for them. -/
theorem tokensOf_operations (ops : List Operation) :
    tokensOf (ops.map .operation) = .ok (Operation.toTokens ops) :=
  mapAll_own (f := token?) (fun _ => rfl) ops

/-- Tokens, and nothing else, are translated to operations. -/
theorem converts_operationsOf : Converts operationsOf token Operation.ofToken := by
  refine converts_mapAll (fun t t' h => token.inj h) (fun _ => rfl) ?_
  intro e
  cases e with
  | token t => exact Or.inr ⟨t, rfl⟩
  | operation op => exact Or.inl rfl
  | bare v => exact Or.inl rfl
  | empty => exact Or.inl rfl

/-- Operations, and nothing else, are translated back to tokens. -/
theorem converts_tokensOf : Converts tokensOf operation Operation.toToken := by
  refine converts_mapAll (fun op op' h => operation.inj h) (fun _ => rfl) ?_
  intro e
  cases e with
  | operation op => exact Or.inr ⟨op, rfl⟩
  | token t => exact Or.inl rfl
  | bare v => exact Or.inl rfl
  | empty => exact Or.inl rfl

end Element

-- ── There and back ───────────────────────────────────────────────────────────────

/-- Tokens come back from their operations. -/
theorem Operation.toTokens_ofTokens (ts : List Token) : toTokens (ofTokens ts) = ts := by
  have hid : toToken ∘ ofToken = id := funext toToken_ofToken
  rw [toTokens, ofTokens, List.map_map, hid, List.map_id]

/-- Operations come back from their tokens. -/
theorem Operation.ofTokens_toTokens (ops : List Operation) : ofTokens (toTokens ops) = ops := by
  have hid : ofToken ∘ toToken = id := funext ofToken_toToken
  rw [ofTokens, toTokens, List.map_map, hid, List.map_id]

namespace Source

/-- Tokens written out as a source. -/
def written (ts : List Token) : Source :=
  text (String.ofList (Token.render ts))

/-- A source translated to operations, translated back and written out. -/
def rewritten (s : Source) : Source :=
  written (Operation.toTokens s.operations)

/-- A text that is written from tokens has their symbols as its characters. -/
theorem characters_written (ts : List Token) : (written ts).characters = Token.render ts := by
  rw [written, characters, String.toList_ofList]

/-- Tokens that are written down are read again. -/
theorem tokens_written (ts : List Token) : (written ts).tokens = ts := by
  rw [tokens_eq, characters_written, Token.filterMap_render]

/-- Operations that are written down are read again. -/
theorem operations_written (ops : List Operation) :
    (written (Operation.toTokens ops)).operations = ops := by
  rw [operations, tokens_written, Operation.ofTokens_toTokens]

theorem rewritten_eq (s : Source) : s.rewritten = written s.tokens := by
  rw [rewritten, operations, Operation.toTokens_ofTokens]

/-- To write a source anew once more changes nothing. -/
theorem rewritten_rewritten (s : Source) : s.rewritten.rewritten = s.rewritten := by
  rw [rewritten_eq, rewritten_eq, tokens_written]

/-- **All the ways between sources, tokens and operations agree.** Operations and tokens come back
    as they were, a source comes back without its comments, and only rows of one kind can be
    translated. -/
theorem translation_round_trips :
    (∀ ops : List Operation, ∃ ts, Element.tokensOf (ops.map .operation) = .ok ts
      ∧ Element.operationsOf ((written ts).tokens.map .token) = .ok ops)
    ∧ (∀ ts : List Token, ∃ ops, Element.operationsOf (ts.map .token) = .ok ops
      ∧ Element.tokensOf (ops.map .operation) = .ok ts ∧ (written ts).tokens = ts)
    ∧ (∀ s : Source, ∃ ops ts, Element.operationsOf (s.tokens.map .token) = .ok ops
      ∧ Element.tokensOf (ops.map .operation) = .ok ts ∧ Token.render ts = s.instructions
      ∧ s.rewritten = written ts ∧ s.rewritten.rewritten = s.rewritten)
    ∧ Element.Converts Element.operationsOf Element.token Operation.ofToken
    ∧ Element.Converts Element.tokensOf Element.operation Operation.toToken := by
  refine ⟨?_, ?_, ?_, Element.converts_operationsOf, Element.converts_tokensOf⟩
  · intro ops
    refine ⟨_, Element.tokensOf_operations ops, ?_⟩
    rw [Element.operationsOf_tokens]
    exact congrArg Except.ok (operations_written ops)
  · intro ts
    refine ⟨_, Element.operationsOf_tokens ts, ?_, tokens_written ts⟩
    rw [Element.tokensOf_operations, Operation.toTokens_ofTokens]
  · intro s
    refine ⟨_, s.tokens, Element.operationsOf_tokens s.tokens, ?_, render_tokens s, rewritten_eq s,
      rewritten_rewritten s⟩
    rw [Element.tokensOf_operations, Operation.toTokens_ofTokens]

/-- The character of a token is no token by itself, and an operation stands where one is refused. -/
theorem translation_stops_at_character :
    let es : List Element := [.token .increment, .bare (.words "+"), .operation .increment]
    Element.operationsOf es = .error (.bare (.words "+"))
      ∧ Diagnostic.ofForeign (.bare (.words "+")) = ⟨"KeyError", "'+'", none⟩ := by
  intro es
  obtain ⟨-, -, -, hconverts, -⟩ := translation_round_trips
  have hfirst : Element.operationsOf es = .error (.bare (.words "+")) := by
    refine (hconverts.refuses_iff es _).mpr ⟨[.token .increment], [.operation .increment], rfl, ?_,
      fun t => nofun⟩
    intro e he
    exact ⟨.increment, List.mem_singleton.mp he⟩
  refine ⟨hfirst, hconverts.reported es _ hfirst ?_⟩
  intro e he
  simp only [es, List.mem_cons, List.not_mem_nil, or_false] at he
  rcases he with rfl | rfl | rfl
  · exact .token .increment
  · exact .words "+"
  · exact .operation .increment

end Source

end TapeMachine
