import SqlTokens.Proofs.Json.RoundTrip
import SqlTokens.Proofs.Run.Reports

/-!
# Tokens read back from JSON

A list of tokens is written as an array, with one object for each token. The tokens can be told from
what is written, whether it stands in one line or is spread over lines (`lists_compact`,
`lists_json`); and so can a text from the array that is printed for its tokens
(`json_is_lossless`).
-/

namespace SqlTokens

namespace Token

/-- A token is read from the object that is written for it. -/
theorem ofJson?_toJson (token : Token) : ofJson? token.toJson = some token := by
  obtain ⟨kind, text⟩ := token
  show ofMembers? none none
    [(some "kind".toList, .ofText kind.name.toList), (some "text".toList, .ofText text)] = _
  simp [ofMembers?, Kind.ofJson?, Json.ofText, Json.text?]

theorem isTextual_toJson (token : Token) : token.toJson.IsTextual := by
  apply Json.IsTextual.object
  · simp
  · simp [Json.IsTextual.ofText]

theorem isTextual_toJsonArray (tokens : List Token) : (toJsonArray tokens).IsTextual := by
  apply Json.IsTextual.array
  intro item hitem
  obtain ⟨token, -, rfl⟩ := List.mem_map.1 hitem
  exact token.isTextual_toJson

end Token

namespace Report

variable {tokens tokens' : List Token} {text : List Char}

/-- A JSON text lists tokens. It is an array, and its elements stand for these tokens, one element
for each token, in order. -/
def Lists (text : List Char) (tokens : List Token) : Prop :=
  ∃ items, Json.read? text = some (.array items) ∧ items.map Token.ofJson? = tokens.map some

theorem Lists.of_read? (h : Json.read? text = some (Token.toJsonArray tokens)) :
    Lists text tokens := by
  refine ⟨tokens.map Token.toJson, h, ?_⟩
  rw [List.map_map]
  congr 1
  funext token
  exact token.ofJson?_toJson

theorem Lists.unique (h : Lists text tokens) (h' : Lists text tokens') : tokens = tokens' := by
  obtain ⟨items, hread, hitems⟩ := h
  obtain ⟨items', hread', hitems'⟩ := h'
  rw [hread] at hread'
  cases hread'
  exact List.map_injective_iff.mpr (fun _ _ => Option.some.inj) (hitems.symm.trans hitems')

theorem lists_compact (tokens : List Token) : Lists (Token.toJsonArray tokens).compact tokens :=
  .of_read? (Json.read?_compact (Token.isTextual_toJsonArray tokens))

theorem lists_json (tokens : List Token) : Lists (json tokens) tokens := by
  apply Lists.of_read?
  apply Json.read?_pretty (Token.isTextual_toJsonArray tokens)
  simp [Json.isSpace]

/-- A token is read from its object, and a list of tokens from its array, element by element, in
either form. A lexer that keeps all tokens of a text therefore hands out an array from which nothing
but this text can be put together again; and so does a run that prints the array. -/
theorem json_is_lossless :
    (∀ token : Token, (Json.read? token.toJson.compact).bind Token.ofJson? = some token) ∧
      (∀ tokens, Lists (Token.toJsonArray tokens).compact tokens ∧ Lists (json tokens) tokens) ∧
      (∀ (lexer : Lexer) (feed : Feed) text, lexer.settings.skipSundry = false → feed.Holds text →
        ∃ tokens, (lexer.readFeed feed).result = .ok tokens ∧
          ∀ listed, Lists (Token.toJsonArray tokens).compact listed →
            Token.source listed = text) ∧
      ∀ {σ : Type} (machine : Machine σ) files arguments text,
        machine.Reports files arguments false (Report.tokens .json) text →
        let outcome := machine.run files arguments
        outcome.ending = .succeeded ∧ Lists outcome.printed (tokensOf text) ∧
          ∀ listed, Lists outcome.printed listed → Token.source listed = text := by
  refine ⟨?_, fun tokens => ⟨lists_compact tokens, lists_json tokens⟩, ?_, ?_⟩
  · intro token
    rw [Json.read?_compact token.isTextual_toJson, Option.bind_some, token.ofJson?_toJson]
  · intro lexer feed text hkeeps holds
    have hresult : (lexer.readFeed feed).result = .ok (tokensOf text) := by
      rw [lexer.result_readFeed_of_holds holds, lexer.result_readText, hkeeps]
      rfl
    refine ⟨tokensOf text, hresult, ?_⟩
    intro listed hlisted
    rw [hlisted.unique (lists_compact _), source_tokensOf]
  · intro σ machine files arguments text h outcome
    have hprinted : Lists outcome.printed (tokensOf text) := by
      rw [h.printed_eq]
      exact lists_json (tokensOf text)
    refine ⟨h.ending_eq, hprinted, ?_⟩
    intro listed hlisted
    rw [hlisted.unique hprinted, source_tokensOf]

/-- A quoted text that ends too early, with a backslash, a control and a character beyond the
sixteen-bit range in it, which comes in two pieces. -/
theorem json_is_lossless_hostile_text :
    let text := ['"', '\\', '\x01', '😀']
    let input : Feed := .ofChunks [.data [0x22, 0x5c, 0x01, 0xf0, 0x9f], .data [0x98, 0x80]]
    let environment : Environment := [("SQLLEXER_OUTPUT", [0x6a, 0x73, 0x6f, 0x6e])]
    let machine := Disk.machine environment input
    let disk : Disk := ⟨[], [], []⟩
    let outcome := machine.run disk ["tokenize".toList]
    input.Holds text ∧
      machine.Reports disk ["tokenize".toList] false (Report.tokens .json) text ∧
      outcome.printed =
        ("[\n  \x7b\n    \"kind\": \"QuotedString\",\n" ++
          "    \"text\": \"\\\"\\\\\\u0001😀\"\n  \x7d\n]\n").toList ∧
      (∃ tokens, ((Lexer.basic false).readFeed input).result = .ok tokens ∧
        ∀ listed, Lists (Token.toJsonArray tokens).compact listed → Token.source listed = text) ∧
      ∀ listed, Lists outcome.printed listed → Token.source listed = text := by
  intro text input environment machine disk outcome
  have htokens : tokensOf text = [⟨.quotedString, text⟩] := by cbv
  have holds : input.Holds text := ⟨by decide, by decide⟩
  have hjson : (machine.surroundings disk).settings ⟨none, none, .tokenize none false none⟩ =
      .ok { Settings.default with output := .json } := by
    apply Except.toOption_eq_some_iff.mp
    decide +kernel
  have hrun : machine.Reports disk ["tokenize".toList] false (Report.tokens .json) text :=
    .mk rfl hjson (.tokenize false) rfl holds
  obtain ⟨-, -, hlexers, hruns⟩ := json_is_lossless
  obtain ⟨-, -, hlisted⟩ := hruns machine disk ["tokenize".toList] text hrun
  refine ⟨holds, hrun, ?_, hlexers (.basic false) input text rfl holds, hlisted⟩
  show (machine.run disk ["tokenize".toList]).printed = _
  rw [hrun.printed_eq]
  show Report.json (tokensOf text) = _
  rw [htokens]
  decide +kernel

end Report

end SqlTokens
