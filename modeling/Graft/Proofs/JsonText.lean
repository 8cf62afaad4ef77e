/-
Trees written as JSON and read back.

The reader is two machines in a row, one from characters to tokens and one from tokens to trees. For
each it is enough to say what a written piece does to it: a string literal completes one token,
whatever the string holds, and a tree completes one value. A word such as `null` is only complete
when something follows that cannot continue it, so what a written tree leaves behind is told by what
the next character does.

The main statement is `parse?_write`: in either layout a tree is read back as it was. A file that
holds a written list of texts holds exactly these texts.
-/
import Graft.Json.Codec

set_option autoImplicit false

namespace Graft.Json

/-! ## 1. From characters to tokens -/

/-- Characters lead from one state of the first machine to another. -/
def Reads (cs : List Char) (lexer lexer' : Lexer) : Prop :=
  (cs.map some).foldlM Lexer.step lexer = some lexer'

variable {cs ds : List Char} {k l m : Lexer}

theorem Reads.append (h : Reads cs k l) (h' : Reads ds l m) : Reads (cs ++ ds) k m := by
  unfold Reads at *
  rw [List.map_append, List.foldlM_append, h]
  exact h'

theorem reads_nil (l : Lexer) : Reads [] l l := rfl

theorem reads_singleton {c : Char} (h : Lexer.step k (some c) = some l) : Reads [c] k l := by
  show (Lexer.step k (some c) >>= fun next => some next) = some l
  rw [h]
  rfl

theorem Reads.cons {c : Char} (h : Lexer.step k (some c) = some l) (h' : Reads cs l m) :
    Reads (c :: cs) k m := (reads_singleton h).append h'

theorem value?_digit {n : Nat} (h : n < 16) : Hex.value? (Hex.digit n) = some n := by
  have hall : ∀ m : Fin 16, Hex.value? (Hex.digit m.val) = some m.val := by decide
  exact hall ⟨n, h⟩

/-- The part of a string that was read so far, latest character first. -/
def within (read : List Char) (tokens : List Token) : Lexer := ⟨.string ⟨read, none, true⟩, tokens⟩

theorem reads_shortEscape {letter meant : Char} (hu : letter ≠ 'u')
    (h : shortEscape? letter = some meant) (read : List Char) (tokens : List Token) :
    Reads ['\\', letter] (within read tokens) (within (meant :: read) tokens) := by
  refine Reads.cons (l := ⟨.escape ⟨read, none, true⟩, tokens⟩) rfl (reads_singleton ?_)
  show (if letter = 'u' then _ else _) = _
  rw [if_neg hu, h]
  rfl

/-- A control character is read from its four digits. -/
theorem reads_unit {c : Char} (h : c.toNat < 0x20) (read : List Char) (tokens : List Token) :
    Reads ['\\', 'u', '0', '0', Hex.digit (c.toNat / 16), Hex.digit (c.toNat % 16)]
      (within read tokens) (within (c :: read) tokens) := by
  have hhigh := value?_digit (n := c.toNat / 16) (by omega)
  have hlow := value?_digit (n := c.toNat % 16) (by omega)
  have hnumber : Hex.natOf? ['0', '0', Hex.digit (c.toNat / 16), Hex.digit (c.toNat % 16)]
      = some c.toNat := by
    have hzero : Hex.value? '0' = some 0 := by decide
    simp only [Hex.natOf?, List.foldlM_cons, List.foldlM_nil, hzero, hhigh, hlow, Option.map_some,
      Option.bind_eq_bind, Option.bind_some, Option.pure_def, Option.some.injEq]
    omega
  have hunit : Spelling.pushUnit ⟨read, none, true⟩ c.toNat = ⟨c :: read, none, true⟩ := by
    unfold Spelling.pushUnit
    rw [if_neg (by omega), if_neg (by omega), Char.ofNat_toNat]
    rfl
  -- The backslash, the `u`, three digits that are only collected, and the one that completes them.
  refine Reads.cons (l := ⟨.escape ⟨read, none, true⟩, tokens⟩) rfl ?_
  refine Reads.cons (l := ⟨.unit ⟨read, none, true⟩ [], tokens⟩) rfl ?_
  refine Reads.cons (l := ⟨.unit ⟨read, none, true⟩ ['0'], tokens⟩) rfl ?_
  refine Reads.cons (l := ⟨.unit ⟨read, none, true⟩ ['0', '0'], tokens⟩) rfl ?_
  refine Reads.cons
    (l := ⟨.unit ⟨read, none, true⟩ [Hex.digit (c.toNat / 16), '0', '0'], tokens⟩) ?_
    (reads_singleton ?_)
  · show (Hex.value? (Hex.digit (c.toNat / 16))).map _ = _
    rw [hhigh]
    rfl
  · show (Hex.natOf? ['0', '0', Hex.digit (c.toNat / 16), Hex.digit (c.toNat % 16)]).map _ = _
    rw [hnumber]
    show some (Lexer.mk (.string (Spelling.pushUnit _ _)) _) = _
    rw [hunit]
    rfl

/-- An escaped character is read as the character. -/
theorem reads_escapeChar (c : Char) (read : List Char) (tokens : List Token) :
    Reads (escapeChar c) (within read tokens) (within (c :: read) tokens) := by
  -- One case for each line of the escape table, in its order.
  have hcode {n : Nat} (h : c.toNat = n) : c = Char.ofNat n := by rw [← h, Char.ofNat_toNat]
  unfold escapeChar
  by_cases hquote : c = '"'
  · rw [if_pos hquote, hquote]
    exact reads_shortEscape (by decide) rfl read tokens
  rw [if_neg hquote]
  by_cases hslash : c = '\\'
  · rw [if_pos hslash, hslash]
    exact reads_shortEscape (by decide) rfl read tokens
  rw [if_neg hslash]
  by_cases hline : c = '\n'
  · rw [if_pos hline, hline]
    exact reads_shortEscape (by decide) rfl read tokens
  rw [if_neg hline]
  by_cases hreturn : c = '\r'
  · rw [if_pos hreturn, hreturn]
    exact reads_shortEscape (by decide) rfl read tokens
  rw [if_neg hreturn]
  by_cases htab : c = '\t'
  · rw [if_pos htab, htab]
    exact reads_shortEscape (by decide) rfl read tokens
  rw [if_neg htab]
  by_cases hback : c.toNat = 8
  · rw [if_pos hback, hcode hback]
    exact reads_shortEscape (by decide) rfl read tokens
  rw [if_neg hback]
  by_cases hfeed : c.toNat = 12
  · rw [if_pos hfeed, hcode hfeed]
    exact reads_shortEscape (by decide) rfl read tokens
  rw [if_neg hfeed]
  by_cases hcontrol : c.toNat < 0x20
  · rw [if_pos hcontrol]
    exact reads_unit hcontrol read tokens
  rw [if_neg hcontrol]
  refine reads_singleton ?_
  show (if c = '"' then _ else if c = '\\' then _ else if c.toNat < 0x20 then _ else _) = _
  rw [if_neg hquote, if_neg hslash, if_neg hcontrol]
  rfl

/-- A string literal completes the token of its text, whatever that is. -/
theorem reads_writeString (s : String) (tokens : List Token) :
    Reads (writeString (some s)) ⟨.between, tokens⟩ ⟨.between, .string (some s) :: tokens⟩ := by
  -- The induction is on the characters that are left, for every part that was read before.
  have hchars : ∀ (cs read : List Char),
      Reads (cs.flatMap escapeChar) (within read tokens) (within (cs.reverse ++ read) tokens) := by
    intro cs
    induction cs with
    | nil => exact fun read => reads_nil _
    | cons c cs ih =>
      intro read
      rw [List.flatMap_cons, List.reverse_cons, List.append_assoc]
      exact (reads_escapeChar c read tokens).append (ih (c :: read))
  refine Reads.cons (l := within [] tokens) rfl ((hchars s.toList []).append (reads_singleton ?_))
  show some (Lexer.mk .between (Token.string (some (String.ofList (s.toList.reverse ++ []).reverse))
    :: tokens)) = _
  rw [List.append_nil, List.reverse_reverse, String.ofList_toList]

/-! ## 2. From trees to tokens -/

/-- A tree whose numbers are number literals. Only such trees can be read. -/
inductive Written : Json → Prop
  | null : Written .null
  | bool (value : Bool) : Written (.bool value)
  | number {literal : String} (hword : literal.toList.all isWordChar = true)
      (hnumber : isNumber literal.toList = true) : Written (.number literal)
  | string (spelled : Option String) : Written (.string spelled)
  | array {items : List Json} (h : ∀ item ∈ items, Written item) : Written (.array items)
  | object {fields : List (Option String × Json)} (h : ∀ field ∈ fields, Written field.2) :
      Written (.object fields)

mutual

/-- The tokens of a tree. -/
def tokensOf : Json → List Token
  | .null => [.atom .null]
  | .bool value => [.atom (.bool value)]
  | .number literal => [.atom (.number literal)]
  | .string spelled => [.string spelled]
  | .array [] => [.openArray, .closeArray]
  | .array (item :: items) =>
    .openArray :: (tokensOf item ++ (tokensOfItems items ++ [.closeArray]))
  | .object [] => [.openObject, .closeObject]
  | .object ((name, value) :: fields) =>
    .openObject :: .string name :: .colon ::
      (tokensOf value ++ (tokensOfFields fields ++ [.closeObject]))

/-- The tokens of the items after the first. -/
def tokensOfItems : List Json → List Token
  | [] => []
  | item :: items => .comma :: (tokensOf item ++ tokensOfItems items)

/-- The tokens of the fields after the first. -/
def tokensOfFields : List (Option String × Json) → List Token
  | [] => []
  | (name, value) :: fields =>
    .comma :: .string name :: .colon :: (tokensOf value ++ tokensOfFields fields)

end

/-- The first machine has read some tokens, up to a word that may still go on: whatever cannot
continue a word, be it a character or the end, finds these tokens complete. -/
structure Rests (lexer : Lexer) (tokens : List Token) : Prop where
  step : ∀ c, isWordChar c = false → Lexer.step lexer (some c) = Lexer.begin tokens c
  finish : lexer.finish = some tokens.reverse

theorem rests_between (tokens : List Token) : Rests ⟨.between, tokens⟩ tokens :=
  ⟨fun _ _ => rfl, rfl⟩

/-- From where the machine rests, a character that ends every word goes on as from between two
tokens. -/
theorem Rests.reads_cons {tokens : List Token} {c : Char} (h : Rests l tokens)
    (hc : isWordChar c = false) (hbegin : Lexer.begin tokens c = some k) (hds : Reads ds k m) :
    Reads (c :: ds) l m :=
  Reads.cons ((h.step c hc).trans hbegin) hds

theorem begin_of_isWordChar {c : Char} (h : isWordChar c = true) (tokens : List Token) :
    Lexer.begin tokens c = some ⟨.word [c], tokens⟩ := by
  unfold Lexer.begin
  split
  all_goals first
    | exact absurd h (by decide)
    | rw [if_pos h]

/-- A word is read as its value. -/
theorem reads_word {value : Json} (hword : cs.all isWordChar = true) (hne : cs ≠ [])
    (hvalue : atom? cs = some value) (tokens : List Token) :
    ∃ l, Reads cs ⟨.between, tokens⟩ l ∧ Rests l (.atom value :: tokens) := by
  -- The characters of a word are only collected; the word is looked up when it is over.
  have hmore : ∀ (cs read : List Char), cs.all isWordChar = true →
      Reads cs ⟨.word read, tokens⟩ ⟨.word (cs.reverse ++ read), tokens⟩ := by
    intro cs
    induction cs with
    | nil => exact fun read _ => reads_nil _
    | cons c cs ih =>
      intro read hall
      rw [List.all_cons, Bool.and_eq_true] at hall
      rw [List.reverse_cons, List.append_assoc]
      refine Reads.cons (l := ⟨.word (c :: read), tokens⟩) ?_ (ih (c :: read) hall.2)
      show (if isWordChar c then _ else _) = _
      rw [if_pos hall.1]
  obtain ⟨first, rest, rfl⟩ := List.exists_cons_of_ne_nil hne
  rw [List.all_cons, Bool.and_eq_true] at hword
  refine ⟨⟨.word (rest.reverse ++ [first]), tokens⟩,
    Reads.cons (begin_of_isWordChar hword.1 tokens) (hmore rest [first] hword.2), ?_, ?_⟩
  · intro c hc
    show (if isWordChar c then _ else _) = _
    rw [hc, if_neg (by simp), List.reverse_append, List.reverse_reverse]
    show (atom? (first :: rest)).bind _ = _
    rw [hvalue]
    rfl
  · show (atom? (rest.reverse ++ [first]).reverse).map _ = _
    rw [List.reverse_append, List.reverse_reverse]
    show (atom? (first :: rest)).map _ = _
    rw [hvalue]
    rfl

/-- A literal that spells no text is read as one that spells none. -/
theorem reads_literal (spelled : Option String) (tokens : List Token) :
    Reads (writeString spelled) ⟨.between, tokens⟩ ⟨.between, .string spelled :: tokens⟩ := by
  cases spelled with
  | none => rfl
  | some s => exact reads_writeString s tokens

/-- What a layout adds to a text means nothing: its breaks are blank, and behind a name it writes a
colon. -/
structure Style.Quiet (style : Style) : Prop where
  lineBreak : ∀ depth, ∀ c ∈ style.lineBreak depth, c = '\n' ∨ c = ' '
  colon : ∀ tokens, Reads style.colon ⟨.between, tokens⟩ ⟨.between, .colon :: tokens⟩

theorem quiet_compact : Style.compact.Quiet where
  lineBreak _ _ h := absurd h List.not_mem_nil
  colon _ := rfl

theorem quiet_pretty : Style.pretty.Quiet where
  lineBreak _ _ h := (List.mem_cons.mp h).imp_right List.eq_of_mem_replicate
  colon _ := rfl

theorem reads_blanks (h : ∀ c ∈ cs, c = '\n' ∨ c = ' ') (tokens : List Token) :
    Reads cs ⟨.between, tokens⟩ ⟨.between, tokens⟩ := by
  induction cs with
  | nil => exact reads_nil _
  | cons c cs ih =>
    obtain ⟨hc, hcs⟩ := List.forall_mem_cons.mp h
    refine Reads.cons ?_ (ih hcs)
    rcases hc with rfl | rfl <;> rfl

/-- Blanks leave the machine at rest. -/
theorem Rests.reads_blanks {tokens : List Token} (hrests : Rests l tokens)
    (h : ∀ c ∈ cs, c = '\n' ∨ c = ' ') : ∃ m, Reads cs l m ∧ Rests m tokens := by
  cases cs with
  | nil => exact ⟨l, reads_nil l, hrests⟩
  | cons c cs =>
    obtain ⟨hc, hcs⟩ := List.forall_mem_cons.mp h
    refine ⟨⟨.between, tokens⟩, hrests.reads_cons ?_ ?_ (Json.reads_blanks hcs tokens),
      rests_between tokens⟩
    · rcases hc with rfl | rfl <;> rfl
    · rcases hc with rfl | rfl <;> rfl

variable {style : Style}

/-- What is written for a tree is read as its tokens. -/
def Spells (style : Style) (json : Json) : Prop :=
  ∀ depth tokens, ∃ l, Reads (write style depth json) ⟨.between, tokens⟩ l ∧
    Rests l ((tokensOf json).reverse ++ tokens)

theorem reads_writeItems (hstyle : style.Quiet) {items : List Json}
    (h : ∀ item ∈ items, Spells style item) (depth : Nat) {tokens : List Token}
    (hrests : Rests l tokens) : ∃ m, Reads (writeItems style depth items) l m ∧
      Rests m ((tokensOfItems items).reverse ++ tokens) := by
  induction items generalizing l tokens with
  | nil => exact ⟨l, reads_nil l, hrests⟩
  | cons item items ih =>
    obtain ⟨hitem, hitems⟩ := List.forall_mem_cons.mp h
    obtain ⟨k, hreads, hk⟩ := hitem depth (.comma :: tokens)
    obtain ⟨m, hmore, hm⟩ := ih hitems hk
    refine ⟨m, ?_, by simpa [tokensOfItems] using hm⟩
    rw [writeItems, List.cons_append, List.cons_append, List.append_assoc]
    exact hrests.reads_cons rfl rfl
      ((reads_blanks (hstyle.lineBreak depth) _).append (hreads.append hmore))

/-- A field of a tree: the literal of its name, the colon, and its value. -/
theorem reads_writeField (hstyle : style.Quiet) (name : Option String) {value : Json}
    (h : Spells style value) (depth : Nat) (tokens : List Token) :
    ∃ m, Reads (writeString name ++ (style.colon ++ write style depth value)) ⟨.between, tokens⟩ m ∧
      Rests m ((tokensOf value).reverse ++ (.colon :: .string name :: tokens)) := by
  obtain ⟨m, hreads, hm⟩ := h depth (.colon :: .string name :: tokens)
  exact ⟨m, (reads_literal name _).append ((hstyle.colon _).append hreads), hm⟩

theorem reads_writeFields (hstyle : style.Quiet) {fields : List (Option String × Json)}
    (h : ∀ field ∈ fields, Spells style field.2) (depth : Nat) {tokens : List Token}
    (hrests : Rests l tokens) : ∃ m, Reads (writeFields style depth fields) l m ∧
      Rests m ((tokensOfFields fields).reverse ++ tokens) := by
  induction fields generalizing l tokens with
  | nil => exact ⟨l, reads_nil l, hrests⟩
  | cons field fields ih =>
    obtain ⟨name, value⟩ := field
    obtain ⟨hvalue, hfields⟩ := List.forall_mem_cons.mp h
    obtain ⟨k, hreads, hk⟩ := reads_writeField hstyle name hvalue depth (.comma :: tokens)
    obtain ⟨m, hmore, hm⟩ := ih hfields hk
    refine ⟨m, ?_, by simpa [tokensOfFields] using hm⟩
    rw [writeFields, List.cons_append, List.cons_append, List.append_assoc]
    exact hrests.reads_cons rfl rfl
      ((reads_blanks (hstyle.lineBreak depth) _).append (hreads.append hmore))

theorem atom?_of_isNumber (h : isNumber cs = true) :
    atom? cs = some (.number (String.ofList cs)) := by
  unfold atom?
  have hne (word : List Char) (hword : isNumber word = false) : cs ≠ word := by
    rintro rfl
    exact absurd h (by rw [hword]; decide)
  rw [if_neg (hne _ (by decide)), if_neg (hne _ (by decide)), if_neg (hne _ (by decide)), if_pos h]

/-- **A written tree falls into its tokens**, in either layout and at any depth. -/
theorem spells_of_written (hstyle : style.Quiet) {json : Json} (h : Written json) :
    Spells style json := by
  induction h with
  | null =>
    intro depth tokens
    rw [write]
    exact reads_word (by decide) (by decide) rfl tokens
  | bool value =>
    intro depth tokens
    cases value
    · rw [write]
      exact reads_word (by decide) (by decide) rfl tokens
    · rw [write]
      exact reads_word (by decide) (by decide) rfl tokens
  | @number literal hword hnumber =>
    intro depth tokens
    have hne : literal.toList ≠ [] := fun hnil => absurd (hnil ▸ hnumber) (by decide)
    rw [write]
    have hatom := atom?_of_isNumber hnumber
    rw [String.ofList_toList] at hatom
    exact reads_word hword hne hatom tokens
  | string spelled =>
    intro depth tokens
    rw [write]
    exact ⟨_, reads_literal spelled tokens, rests_between _⟩
  | @array items _ ih =>
    intro depth tokens
    cases items with
    | nil =>
      rw [write]
      exact ⟨_, Reads.cons rfl (reads_singleton rfl), rests_between _⟩
    | cons item items =>
      obtain ⟨hitem, hitems⟩ := List.forall_mem_cons.mp ih
      obtain ⟨k, hfirst, hk⟩ := hitem (depth + 1) (.openArray :: tokens)
      obtain ⟨m, hmore, hm⟩ := reads_writeItems hstyle hitems (depth + 1) hk
      obtain ⟨n, hbreak, hn⟩ := hm.reads_blanks (hstyle.lineBreak depth)
      have hclose := hn.reads_cons (c := ']') rfl rfl (reads_nil _)
      refine ⟨_, ?_, by simpa [tokensOf] using rests_between _⟩
      rw [write, List.cons_append, List.cons_append, List.append_assoc]
      -- The bracket, a break, the first item, the others, a break and the bracket that closes.
      exact Reads.cons rfl ((reads_blanks (hstyle.lineBreak _) _).append
        (hfirst.append (hmore.append (hbreak.append hclose))))
  | @object fields _ ih =>
    intro depth tokens
    cases fields with
    | nil =>
      rw [write]
      exact ⟨_, Reads.cons rfl (reads_singleton rfl), rests_between _⟩
    | cons field fields =>
      obtain ⟨name, value⟩ := field
      obtain ⟨hvalue, hfields⟩ := List.forall_mem_cons.mp ih
      obtain ⟨k, hfirst, hk⟩ :=
        reads_writeField hstyle name hvalue (depth + 1) (.openObject :: tokens)
      obtain ⟨m, hmore, hm⟩ := reads_writeFields hstyle hfields (depth + 1) hk
      obtain ⟨n, hbreak, hn⟩ := hm.reads_blanks (hstyle.lineBreak depth)
      have hclose := hn.reads_cons (c := '\x7d') rfl rfl (reads_nil _)
      refine ⟨_, ?_, by simpa [tokensOf] using rests_between _⟩
      rw [write, List.cons_append, List.cons_append, List.append_assoc]
      exact Reads.cons rfl ((reads_blanks (hstyle.lineBreak _) _).append
        (hfirst.append (hmore.append (hbreak.append hclose))))

theorem tokens?_write (hstyle : style.Quiet) {json : Json} (h : Written json) (depth : Nat) :
    tokens? ((write style depth json).map some) = some (tokensOf json) := by
  obtain ⟨l, hreads, hl⟩ := spells_of_written hstyle h depth []
  rw [tokens?, hreads, Option.bind_some, hl.finish, List.append_nil, List.reverse_reverse]

/-! ## 3. From tokens to trees -/

theorem foldlM_singleton (builder : Builder) (token : Token) :
    [token].foldlM Builder.step builder = builder.step token := by
  rw [List.foldlM_cons]
  exact bind_pure _

/-- The tokens of a tree build the tree, wherever a value is expected. -/
def Builds (json : Json) : Prop :=
  ∀ stack, (tokensOf json).foldlM Builder.step ⟨stack, .value⟩ = Builder.complete stack json

/-- The first item of an array is built as any other value: no tree starts by closing one. -/
theorem foldlM_tokensOf_firstItem (json : Json) (stack : List Frame) (rest : List Token) :
    (tokensOf json ++ rest).foldlM Builder.step ⟨stack, .firstItem⟩
      = (tokensOf json ++ rest).foldlM Builder.step ⟨stack, .value⟩ := by
  -- The two states differ at the token that closes an array, and at no token that starts a tree.
  match json with
  | .null | .bool _ | .number _ | .string _ | .array [] | .array (_ :: _) | .object []
  | .object (_ :: _) => simp only [tokensOf]; rfl

theorem foldlM_tokensOfItems {items : List Json} (h : ∀ item ∈ items, Builds item)
    (before : List Json) (stack : List Frame) :
    (tokensOfItems items).foldlM Builder.step ⟨.array before :: stack, .separator⟩
      = some ⟨.array (items.reverse ++ before) :: stack, .separator⟩ := by
  -- The second machine keeps what it has built latest first.
  induction items generalizing before with
  | nil => rfl
  | cons item items ih =>
    obtain ⟨hitem, hitems⟩ := List.forall_mem_cons.mp h
    rw [tokensOfItems]
    show (tokensOf item ++ tokensOfItems items).foldlM Builder.step
      ⟨.array before :: stack, .value⟩ = _
    rw [List.foldlM_append, hitem]
    show (tokensOfItems items).foldlM Builder.step ⟨.array (item :: before) :: stack, .separator⟩ = _
    rw [ih hitems, List.reverse_cons, List.append_assoc]
    rfl

theorem foldlM_tokensOfFields {fields : List (Option String × Json)}
    (h : ∀ field ∈ fields, Builds field.2) (before : List (Option String × Json))
    (stack : List Frame) :
    (tokensOfFields fields).foldlM Builder.step ⟨.object before :: stack, .separator⟩
      = some ⟨.object (fields.reverse ++ before) :: stack, .separator⟩ := by
  induction fields generalizing before with
  | nil => rfl
  | cons field fields ih =>
    obtain ⟨name, value⟩ := field
    obtain ⟨hvalue, hfields⟩ := List.forall_mem_cons.mp h
    rw [tokensOfFields]
    show (tokensOf value ++ tokensOfFields fields).foldlM Builder.step
      ⟨.field before name :: stack, .value⟩ = _
    rw [List.foldlM_append, hvalue]
    show (tokensOfFields fields).foldlM Builder.step
      ⟨.object ((name, value) :: before) :: stack, .separator⟩ = _
    rw [ih hfields, List.reverse_cons, List.append_assoc]
    rfl

theorem builds_of_written {json : Json} (h : Written json) : Builds json := by
  induction h with
  | null | bool _ | number _ _ | string _ =>
    intro stack
    rw [tokensOf, foldlM_singleton]
    rfl
  | @array items _ ih =>
    intro stack
    cases items with
    | nil =>
      rw [tokensOf, List.foldlM_cons]
      exact foldlM_singleton _ _
    | cons item items =>
      obtain ⟨hitem, hitems⟩ := List.forall_mem_cons.mp ih
      rw [tokensOf]
      show (tokensOf item ++ (tokensOfItems items ++ [Token.closeArray])).foldlM Builder.step
        ⟨.array [] :: stack, .firstItem⟩ = _
      rw [foldlM_tokensOf_firstItem, List.foldlM_append, hitem]
      show (tokensOfItems items ++ [Token.closeArray]).foldlM Builder.step
        ⟨.array [item] :: stack, .separator⟩ = _
      rw [List.foldlM_append, foldlM_tokensOfItems hitems, Option.bind_eq_bind, Option.bind_some,
        foldlM_singleton]
      show Builder.complete stack (.array (items.reverse ++ [item]).reverse) = _
      rw [List.reverse_append, List.reverse_reverse]
      rfl
  | @object fields _ ih =>
    intro stack
    cases fields with
    | nil =>
      rw [tokensOf, List.foldlM_cons]
      exact foldlM_singleton _ _
    | cons field fields =>
      obtain ⟨name, value⟩ := field
      obtain ⟨hvalue, hfields⟩ := List.forall_mem_cons.mp ih
      rw [tokensOf]
      show (tokensOf value ++ (tokensOfFields fields ++ [Token.closeObject])).foldlM Builder.step
        ⟨.field [] name :: stack, .value⟩ = _
      rw [List.foldlM_append, hvalue]
      show (tokensOfFields fields ++ [Token.closeObject]).foldlM Builder.step
        ⟨.object [(name, value)] :: stack, .separator⟩ = _
      rw [List.foldlM_append, foldlM_tokensOfFields hfields, Option.bind_eq_bind, Option.bind_some,
        foldlM_singleton]
      show Builder.complete stack (.object (fields.reverse ++ [(name, value)]).reverse) = _
      rw [List.reverse_append, List.reverse_reverse]
      rfl

/-- **A written tree is read back as it was**, in either layout. -/
theorem parse?_write (hstyle : style.Quiet) {json : Json} (h : Written json) (depth : Nat) :
    parse? ((write style depth json).map some) = some json := by
  rw [parse?, tokens?_write hstyle h, Option.bind_some, ofTokens?, builds_of_written h]
  rfl

/-! ## 4. Values in files -/

/-- **A value that was written to a file is read back**, if its tree can be read and stands for it. -/
theorem ofBytes?_write {α : Type} [Codec α] {value : α} (hstyle : style.Quiet)
    (hwritten : Written (encode value)) (hdecode : decode? nestingLimit (encode value) = some value) :
    (ofBytes? (String.ofList (write style 0 (encode value))).toUTF8 : Option α) = some value := by
  rw [ofBytes?, Utf8.characters_toUTF8, String.toList_ofList, parse?_write hstyle hwritten]
  exact hdecode

/-- **Written lists of texts are read back.** -/
theorem ofBytes?_toText (values : List String) :
    (ofBytes? (toText values).toUTF8 : Option (List String)) = some values := by
  refine ofBytes?_write quiet_compact (.array fun item hitem => ?_) ?_
  · obtain ⟨s, -, rfl⟩ := List.mem_map.mp hitem
    exact .string (some s)
  · show (values.map text).mapM (decode? 126 : Json → Option String) = some values
    induction values with
    | nil => rfl
    | cons s rest ih =>
      rw [List.map_cons, List.mapM_cons, ih]
      rfl

/-- A record of texts is a tree that can be read. -/
theorem written_record {fields : List (String × Json)} (h : ∀ field ∈ fields, Written field.2) :
    Written (record fields) := by
  refine .object fun field hfield => ?_
  obtain ⟨named, hnamed, rfl⟩ := List.mem_map.mp hfield
  exact h named hnamed

end Graft.Json
