import Septet.Proofs.CommandLine.Words

/-!
# Command lines with a width

Words can always be given behind two hyphens, and need not stand there if none of them
begins with one (`Wording`).  The slot of a command takes its words from either wording
(`Worded.fill_one`, `Worded.fill_oneOrMore`).

The flag for the width belongs to a command.  What all commands share does not know it, but
the name of a command takes everything behind it, whatever it is
(`read_shared_of_classified`).  So a command that has a width is read with the width and
the words that are given to it (`read_width`).
-/

set_option autoImplicit false

namespace Septet.CommandLine

/-! ## Wordings -/

/-- Strings that give words: as they are, or behind two hyphens. -/
inductive Wording : List String → List String → Prop where
  | plain {texts : List String} (plain : ∀ text ∈ texts, IsPlain text) : Wording texts texts
  | divided (texts : List String) : Wording ("--" :: texts) texts

/-- The classes of strings that give words. -/
inductive Worded : List Token → List String → Prop where
  | plain {texts : List String} (plain : ∀ text ∈ texts, IsPlain text) :
      Worded (texts.map .word) texts
  | divided (texts : List String) : Worded (.divider :: texts.map .word) texts

variable {grammar : Grammar} {strings texts : List String} {tokens : List Token}

/-- Strings that give words are classed alike by every grammar. -/
theorem Wording.classifyAll (wording : Wording strings texts) :
    ∃ tokens, Worded tokens texts ∧
      ∀ grammar, CommandLine.classifyAll grammar strings = .ok tokens := by
  cases wording with
  | plain plain =>
      exact ⟨_, .plain plain, fun grammar => classifyAll_of_isPlain grammar _ plain⟩
  | divided => exact ⟨_, .divided _, fun grammar => if_pos rfl⟩

namespace Worded

theorem any_isFlag (worded : Worded tokens texts) : tokens.any Token.isFlag = false := by
  cases worded with
  | plain _ => exact any_isFlag_word texts
  | divided =>
      rw [List.any_cons, any_isFlag_word]
      rfl

/-- A slot takes the words behind two hyphens without these. -/
theorem words (worded : Worded tokens texts) {slot : Slot} (some : slot.arity ≠ .everything)
    (accepted : ∀ text ∈ texts, slot.accepts text = true) : slot.words tokens = .ok texts := by
  have erased : (tokens.map Token.text).erase "--" = texts := by
    cases worded with
    | plain plain =>
        rw [map_text_word]
        exact List.erase_of_not_mem fun member => (plain _ member).ne_divider rfl
    | divided =>
        rw [List.map_cons, map_text_word]
        exact List.erase_cons_head _ _
  simp only [Slot.words, if_neg some, erased, List.all_eq_true.mpr accepted, if_true]

theorem splitDividers {text : String} (worded : Worded tokens (text :: texts)) :
    ∃ front, front ++ .word text :: texts.map .word = tokens ∧
      CommandLine.splitDividers tokens = (front, .word text :: texts.map .word) := by
  have words := splitDividers_word (text :: texts)
  rw [List.map_cons] at words
  cases worded with
  | plain _ => exact ⟨[], rfl, words⟩
  | divided =>
      refine ⟨[.divider], rfl, ?_⟩
      rw [CommandLine.splitDividers, List.span_eq_takeWhile_dropWhile]
      rfl

theorem fill {text : String} (worded : Worded tokens (text :: texts)) {slot : Slot}
    (some : slot.arity ≠ .everything ∧ slot.arity ≠ .any)
    (further : slot.arity.splitFurther (texts.map .word) = (texts.map .word, []))
    (accepted : ∀ other ∈ text :: texts, slot.accepts other = true) :
    CommandLine.fill [slot] tokens =
      .ok { words := [text :: texts], slots := [], rest := [] } := by
  obtain ⟨front, all, split⟩ := worded.splitDividers
  have taken : slot.arity.take? tokens = Option.some (tokens, []) := by
    rw [Arity.take?, if_neg some.2, split]
    dsimp only
    rw [further]
    dsimp only
    rw [all]
  exact fill_cons taken (worded.words some.1 accepted)

theorem fill_one {text : String} (worded : Worded tokens [text]) :
    CommandLine.fill [wordSlot .one] tokens = .ok { words := [[text]], slots := [], rest := [] } :=
  worded.fill ⟨by decide, by decide⟩ rfl fun _ _ => rfl

theorem fill_oneOrMore (worded : Worded tokens texts) (some : texts ≠ [])
    (integers : ∀ text ∈ texts, (Numeral.read text).isSome = true) :
    CommandLine.fill [integerSlot] tokens = .ok { words := [texts], slots := [], rest := [] } := by
  obtain ⟨text, others, rfl⟩ := List.exists_cons_of_ne_nil some
  exact worded.fill ⟨by decide, by decide⟩ (splitWords_word others) integers

end Worded

/-! ## What commands share -/

/-- Classing a string does not change it. -/
theorem text_of_classify {text : String} {token : Token} (classed : classify grammar text = .ok token) :
    token.text = text := by
  unfold classify at classed
  split at classed
  · next next rest _ =>
      cases known : meaningOf grammar ('-' :: next :: rest) with
      | error stop =>
          rw [known] at classed
          cases classed
      | ok meaning =>
          rw [known] at classed
          cases meaning with
          | unknown =>
              dsimp only [bind, Except.bind] at classed
              split at classed <;> cases classed <;> rfl
          | _ =>
              cases classed
              rfl
  · cases classed
    rfl

theorem map_text_of_classifyAll (strings : List String) : ∀ {tokens : List Token},
    classifyAll grammar strings = .ok tokens → tokens.map Token.text = strings := by
  induction strings with
  | nil =>
      intro tokens classed
      cases classed
      rfl
  | cons text strings ih =>
      intro tokens classed
      rw [classifyAll] at classed
      split at classed
      · next same =>
          cases classed
          rw [List.map_cons, map_text_word, same]
          rfl
      · cases first : classify grammar text with
        | error stop =>
            rw [first] at classed
            cases classed
        | ok token =>
            cases others : classifyAll grammar strings with
            | error stop =>
                rw [first, others] at classed
                cases classed
            | ok further =>
                rw [first, others] at classed
                cases classed
                rw [List.map_cons, text_of_classify first, ih others]

theorem classifyAll_cons {text : String} {token : Token} (string : text ≠ "--")
    (first : classify grammar text = .ok token) (others : classifyAll grammar strings = .ok tokens) :
    classifyAll grammar (text :: strings) = .ok (token :: tokens) := by
  rw [classifyAll, if_neg string, first, others]
  rfl

/-- What the slots take at once is not looked at any more, flags or not. -/
theorem readAll_of_filled (fuel : Nat) {arguments : Arguments} {words : List (List String)}
    {text : String}
    (filled : fill arguments.slots (.word text :: tokens) = .ok { words, slots := [], rest := [] }) :
    Arguments.readAll grammar (fuel + 2) arguments (.word text :: tokens) =
      .ok { arguments with words := arguments.words ++ words, slots := [] } := by
  cases flags : (Token.word text :: tokens).any Token.isFlag with
  | false => exact Arguments.readAll_of_no_flag (fuel + 1) flags filled
  | true =>
      -- the slots take all there is in the first turn, and the second finds nothing
      have nothing : fill [] [] = .ok { words := [], slots := [], rest := [] } := rfl
      have ended : Arguments.readAll grammar (fuel + 1)
          { arguments with words := arguments.words ++ words, slots := [] } [] = _ :=
        Arguments.readAll_of_no_flag fuel rfl nothing
      have shorter : ([] : List Token).length < (Token.word text :: tokens).length :=
        Nat.succ_pos _
      unfold Arguments.readAll
      simp only [flags, Bool.not_true, Bool.false_eq_true, if_false, Arguments.fillFrom, filled,
        bind, Except.bind, if_pos shorter, ended, List.append_nil]

/-- **The name of a command takes everything behind it**, as long as it can be classed at all. -/
theorem read_shared_of_classified (name : CommandName)
    (classed : classifyAll sharedGrammar strings = .ok tokens) :
    Arguments.read sharedGrammar (name.text :: strings) =
      .ok { words := [name.text :: strings], slots := [] } := by
  have plain : IsPlain name.text := by cases name <;> decide
  have all := classifyAll_cons plain.ne_divider (classify_of_isPlain sharedGrammar plain) classed
  have filled : fill sharedGrammar.slots (.word name.text :: tokens) =
      .ok { words := [name.text :: strings], slots := [], rest := [] } := by
    rw [← map_text_of_classifyAll strings classed]
    exact fill_command_tokens name tokens
  rw [Arguments.read, all]
  simp only [bind, Except.bind, List.length_cons]
  rw [readAll_of_filled _ filled]
  rfl

/-! ## Commands with a width -/

/-- The string of a width. -/
def widthText (width : Width) : String :=
  toString width.bits

theorem widthOf?_widthText (width : Width) : widthOf? (widthText width) = some width := by
  cases width <;> decide +kernel

theorem isPlain_widthText (width : Width) : IsPlain (widthText width) := by
  cases width <;> decide +kernel

/-- What is read of a width and words. -/
def widthArguments (width : Width) (words : List (List String)) : Arguments where
  flags := [(widthFlag.name, some (widthText width))]
  words
  slots := []

theorem width?_widthArguments (width : Width) (words : List (List String)) :
    (widthArguments width words).width? = some width := by
  have given : (widthArguments width words).occurrence widthFlag.name =
      .given (widthText width) := rfl
  rw [Arguments.width?, given, Occurrence.bind, widthOf?_widthText]
  rfl

section Width

variable {name : CommandName} (takesWidth : name.grammar.flags = [widthFlag])
include takesWidth

theorem classify_widthFlag :
    classify name.grammar widthFlag.name = .ok (.flag widthFlag.name (.named widthFlag.name none)) := by
  cases name with
  | encode | decode | dump => decide +kernel
  | _ => cases takesWidth

theorem give_width (arguments : Arguments) (width : Width) :
    arguments.give name.grammar widthFlag.name (widthText width) = .ok { arguments with
      flags := (widthFlag.name, some (widthText width)) :: arguments.flags } := by
  have accepted : widthFlag.accepts (widthText width) = true :=
    congrArg Option.isSome (widthOf?_widthText width)
  have found : (name.grammar.flags.find? fun flag => flag.name == widthFlag.name) =
      some widthFlag := by
    rw [takesWidth]
    rfl
  simp only [Arguments.give, found, Option.elim_some, accepted, if_true]

/-- A command reads the width that is given to it, and its words behind it. -/
theorem read_own (width : Width) {words : List (List String)}
    (classed : classifyAll name.grammar strings = .ok tokens)
    (noFlag : tokens.any Token.isFlag = false)
    (filled : fill name.grammar.slots tokens = .ok { words, slots := [], rest := [] }) :
    Arguments.read name.grammar (widthFlag.name :: widthText width :: strings) =
      .ok (widthArguments width words) := by
  have value := classifyAll_cons (isPlain_widthText width).ne_divider
    (classify_of_isPlain name.grammar (isPlain_widthText width)) classed
  have all := classifyAll_cons (by decide) (classify_widthFlag takesWidth) value
  rw [Arguments.read, all]
  simp only [bind, Except.bind, List.length_cons]
  rw [Arguments.readAll_flag, give_width takesWidth]
  dsimp only [Except.bind]
  rw [Arguments.readAll_of_no_flag _ noFlag filled]
  rfl

/-- **A command with a width is read with the width and the words that are given to it.** -/
theorem read_width (width : Width) {words : List (List String)} {command : Command}
    (wording : Wording strings texts)
    (filled : ∀ tokens, Worded tokens texts →
      fill name.grammar.slots tokens = .ok { words, slots := [], rest := [] })
    (meant : Command.ofArguments name (widthArguments width words) = .ok command) :
    Invocation.read (name.text :: widthFlag.name :: widthText width :: strings) = .ok {
      storePath := .absent
      logFile := none
      logLevel := none
      command } := by
  obtain ⟨tokens, worded, classed⟩ := wording.classifyAll
  -- the strings are read twice, and only the second grammar knows the flag
  have flag : classify sharedGrammar widthFlag.name = .ok (.flag widthFlag.name .unknown) := by
    decide +kernel
  have behind := classifyAll_cons (by decide) flag
    (classifyAll_cons (isPlain_widthText width).ne_divider
      (classify_of_isPlain sharedGrammar (isPlain_widthText width)) (classed sharedGrammar))
  have shared := read_shared_of_classified name behind
  have own := read_own takesWidth width (classed name.grammar) worded.any_isFlag
    (filled tokens worded)
  have none : (widthArguments width words).leftOver = [] := rfl
  rw [Invocation.read, shared]
  simp only [bind, Except.bind, ofText?_text, own, none, List.append_nil, List.isEmpty_nil,
    Bool.not_true, Bool.false_eq_true, if_false, meant]
  rfl

end Width

/-! ## Quantities on command lines -/

variable (width : Width)

theorem read_encode {values : List Int} (some : values ≠ [])
    (numerals : texts.map Numeral.read = values.map Option.some) (wording : Wording strings texts) :
    Invocation.read (CommandName.encode.text :: widthFlag.name :: widthText width :: strings) = .ok {
      storePath := .absent
      logFile := none
      logLevel := none
      command := .encode width values } := by
  have given : texts ≠ [] := by
    rintro rfl
    exact some (List.map_eq_nil_iff.mp numerals.symm)
  have integers : ∀ text ∈ texts, (Numeral.read text).isSome = true := by
    intro text member
    have read : Numeral.read text ∈ values.map Option.some :=
      numerals ▸ List.mem_map_of_mem member
    obtain ⟨value, _, same⟩ := List.mem_map.mp read
    rw [← same]
    rfl
  have written : texts.filterMap Numeral.read = values := by
    have all : (texts.map Numeral.read).filterMap id = (values.map Option.some).filterMap id := by
      rw [numerals]
    rwa [List.filterMap_map, List.filterMap_map, Function.id_comp, Function.id_comp,
      List.filterMap_some] at all
  refine read_width rfl width wording (fun _ worded => worded.fill_oneOrMore given integers) ?_
  have meant : Command.ofArguments .encode (widthArguments width [texts]) =
      .ok (.encode ((widthArguments width [texts]).width?.getD .bits64)
        (texts.filterMap Numeral.read)) := rfl
  rw [meant, width?_widthArguments, Option.getD_some, written]

theorem read_decode {digits : String} (wording : Wording strings [digits]) :
    Invocation.read (CommandName.decode.text :: widthFlag.name :: widthText width :: strings) = .ok {
      storePath := .absent
      logFile := none
      logLevel := none
      command := .decode (some width) digits } := by
  refine read_width rfl width wording (fun _ worded => worded.fill_one) ?_
  rw [← width?_widthArguments width [[digits]]]
  rfl

theorem read_dump {file : String} (wording : Wording strings [file]) :
    Invocation.read (CommandName.dump.text :: widthFlag.name :: widthText width :: strings) = .ok {
      storePath := .absent
      logFile := none
      logLevel := none
      command := .dump (some width) file } := by
  refine read_width rfl width wording (fun _ worded => worded.fill_one) ?_
  rw [← width?_widthArguments width [[file]]]
  rfl

end Septet.CommandLine
