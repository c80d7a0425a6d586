import ConsumerGroups.Json.Reader
import ConsumerGroups.Proofs.Json.Lexing

/-! # Reading every spelling of a value

A text that spells a value is read as the value. The machine that reads the tokens goes over
those of a part from where the part may begin to where it has been read, whatever is still open
around it.
-/

namespace ConsumerGroups.Json

/-! ## What the machine does -/

namespace Machine

/-- A machine goes over some tokens to another. -/
def Goes (start : Machine) (tokens : List Token) (stop : Machine) : Prop :=
  tokens.foldlM step start = some stop

theorem Goes.append {start middle stop : Machine} {first second : List Token}
    (hfirst : Goes start first middle) (hsecond : Goes middle second stop) :
    Goes start (first ++ second) stop := by
  rw [Goes, List.foldlM_append, hfirst]
  exact hsecond

theorem Goes.cons {start middle stop : Machine} {token : Token} {tokens : List Token}
    (hstep : start.step token = some middle) (hmore : Goes middle tokens stop) :
    Goes start (token :: tokens) stop := by
  rw [Goes, List.foldlM_cons, hstep]
  exact hmore

end Machine

open Machine (Goes)

/-- What reading the tokens of a part does to the machine: from where the part may begin, with
what is read of its container so far, to where it has been read. -/
def Part.ReadBy : Part → List Token → Prop
  | .value json, tokens | .element json, tokens =>
    ∀ phase stack, phase = .value ∨ phase = .firstItem →
      Goes ⟨phase, stack⟩ tokens ⟨.done json, stack⟩
  | .items values, tokens =>
    ∀ phase before outer, phase = .value ∨ phase = .firstItem →
      Goes ⟨phase, .array before :: outer⟩ tokens
        ⟨.done (.array (before.reverse ++ values)), outer⟩
  | .member name json, tokens =>
    ∀ phase before outer, phase = .name ∨ phase = .firstName →
      Goes ⟨phase, .object before :: outer⟩ tokens ⟨.done json, .member before name :: outer⟩
  | .members fields, tokens =>
    ∀ phase before outer, phase = .name ∨ phase = .firstName →
      Goes ⟨phase, .object before :: outer⟩ tokens
        ⟨.done (.object (before.reverse ++ fields)), outer⟩

/-- A token that is a value by itself is read as one. -/
theorem readBy_single {token : Token} {json : Json}
    (hvalue : ∀ stack, Machine.step ⟨.value, stack⟩ token = some ⟨.done json, stack⟩)
    (hitem : ∀ stack, Machine.step ⟨.firstItem, stack⟩ token = some ⟨.done json, stack⟩) :
    (Part.value json).ReadBy [token] := by
  rintro phase stack (rfl | rfl)
  · exact .cons (hvalue stack) rfl
  · exact .cons (hitem stack) rfl

/-! ## What the machine makes of a spelling -/

theorem stops_cons {c : Char} (hc : c.isDigit = false ∧ c ≠ '.' ∧ c ≠ 'e' ∧ c ≠ 'E')
    (rest : List Char) : Stops (c :: rest) := by
  rintro other more ⟨⟩
  exact hc

theorem Blanks.stops {input rest : List Char} (hblanks : Blanks input rest) (hrest : Stops rest) :
    Stops input := by
  cases hblanks with
  | done => exact hrest
  | more hblank _ =>
      apply stops_cons
      rcases hblank with rfl | rfl | rfl | rfl <;> decide

/-- A spelling of a part is read as some tokens, and these as the part. -/
theorem Spells.read {part : Part} {input rest : List Char} (hspells : Spells part input rest)
    (hrest : Stops rest) : ∃ tokens, Lexes input tokens rest ∧ part.ReadBy tokens := by
  induction hspells with
  | nullLiteral =>
      exact ⟨[.null], .of_readToken? rfl, readBy_single (fun _ => rfl) fun _ => rfl⟩
  | trueLiteral =>
      exact ⟨[.bool true], .of_readToken? rfl, readBy_single (fun _ => rfl) fun _ => rfl⟩
  | falseLiteral =>
      exact ⟨[.bool false], .of_readToken? rfl, readBy_single (fun _ => rfl) fun _ => rfl⟩
  | number htail => exact ⟨_, htail.lexes hrest, readBy_single (fun _ => rfl) fun _ => rfl⟩
  | text htext => exact ⟨_, htext.lexes, readBy_single (fun _ => rfl) fun _ => rfl⟩
  | @emptyArray input rest hblanks =>
      have hopen : Lexes ('[' :: input) [.openArray] input := .of_readToken? rfl
      have hclose : Lexes (']' :: rest) [.closeArray] rest := .of_readToken? rfl
      refine ⟨_, hopen.append (hblanks.lexes.append hclose), ?_⟩
      rintro phase stack (rfl | rfl) <;> exact .cons rfl (.cons rfl rfl)
  | @array values input rest _ ih =>
      obtain ⟨tokens, hlexes, hread⟩ := ih hrest
      have hopen : Lexes ('[' :: input) [.openArray] input := .of_readToken? rfl
      refine ⟨_, hopen.append hlexes, ?_⟩
      rintro phase stack (rfl | rfl) <;> exact .cons rfl (hread .firstItem [] stack (.inr rfl))
  | @emptyObject input rest hblanks =>
      have hopen : Lexes ('\x7b' :: input) [.openObject] input := .of_readToken? rfl
      have hclose : Lexes ('\x7d' :: rest) [.closeObject] rest := .of_readToken? rfl
      refine ⟨_, hopen.append (hblanks.lexes.append hclose), ?_⟩
      rintro phase stack (rfl | rfl) <;> exact .cons rfl (.cons rfl rfl)
  | @object fields input rest _ ih =>
      obtain ⟨tokens, hlexes, hread⟩ := ih hrest
      have hopen : Lexes ('\x7b' :: input) [.openObject] input := .of_readToken? rfl
      refine ⟨_, hopen.append hlexes, ?_⟩
      rintro phase stack (rfl | rfl) <;> exact .cons rfl (hread .firstName [] stack (.inr rfl))
  | element hbefore _ hafter ih =>
      obtain ⟨tokens, hlexes, hread⟩ := ih (hafter.stops hrest)
      have hall := hbefore.lexes.append (hlexes.append hafter.lexes)
      rw [List.nil_append, List.append_nil] at hall
      exact ⟨tokens, hall, hread⟩
  | @lastItem json input rest _ ih =>
      obtain ⟨tokens, hlexes, hread⟩ := ih (stops_cons (by decide) rest)
      have hclose : Lexes (']' :: rest) [.closeArray] rest := .of_readToken? rfl
      refine ⟨_, hlexes.append hclose, fun phase before outer hphase => ?_⟩
      refine (hread phase _ hphase).append (.cons rfl ?_)
      rw [List.reverse_cons]
      rfl
  | @item json values input more rest _ _ ih ihmore =>
      obtain ⟨tokens, hlexes, hread⟩ := ih (stops_cons (by decide) more)
      obtain ⟨others, hothers, hreadmore⟩ := ihmore hrest
      have hcomma : Lexes (',' :: more) [.comma] more := .of_readToken? rfl
      refine ⟨_, hlexes.append (hcomma.append hothers), fun phase before outer hphase => ?_⟩
      have hafter := hreadmore .value (json :: before) outer (.inl rfl)
      rw [List.reverse_cons, List.append_assoc] at hafter
      exact (hread phase _ hphase).append (.cons rfl hafter)
  | @member name json input start stop more rest hbefore hname hcolon _ ih =>
      obtain ⟨tokens, hlexes, hread⟩ := ih hrest
      have hmark : Lexes (':' :: more) [.colon] more := .of_readToken? rfl
      refine ⟨_, hbefore.lexes.append (hname.lexes.append (hcolon.lexes.append
        (hmark.append hlexes))), ?_⟩
      rintro phase before outer (rfl | rfl) <;>
        exact .cons rfl (.cons rfl (hread .value _ (.inl rfl)))
  | @lastMember name json input rest _ ih =>
      obtain ⟨tokens, hlexes, hread⟩ := ih (stops_cons (by decide) rest)
      have hclose : Lexes ('\x7d' :: rest) [.closeObject] rest := .of_readToken? rfl
      refine ⟨_, hlexes.append hclose, fun phase before outer hphase => ?_⟩
      refine (hread phase before outer hphase).append (.cons rfl ?_)
      rw [List.reverse_cons]
      rfl
  | @moreMembers name json fields input more rest _ _ ih ihmore =>
      obtain ⟨tokens, hlexes, hread⟩ := ih (stops_cons (by decide) more)
      obtain ⟨others, hothers, hreadmore⟩ := ihmore hrest
      have hcomma : Lexes (',' :: more) [.comma] more := .of_readToken? rfl
      refine ⟨_, hlexes.append (hcomma.append hothers), fun phase before outer hphase => ?_⟩
      have hafter := hreadmore .name ((name, json) :: before) outer (.inl rfl)
      rw [List.reverse_cons, List.append_assoc] at hafter
      exact (hread phase before outer hphase).append (.cons rfl hafter)

/-- A text that spells a value is read as the value. -/
theorem IsSpelling.parse?_eq {text : String} {json : Json} (hspelling : IsSpelling text json) :
    parse? text = some json := by
  obtain ⟨tokens, hlexes, hread⟩ := Spells.read hspelling nofun
  have hrun : tokens.foldlM Machine.step ⟨.value, []⟩ = some ⟨.done json, []⟩ :=
    hread .value [] (.inl rfl)
  have htokens : tokens? text.toList = some tokens := by
    rw [hlexes]
    simp [tokens?]
  rw [parse?, htokens, Option.bind_some, ofTokens?, hrun]
  rfl

end ConsumerGroups.Json
