import Mathlib.Data.List.TakeDrop
import Mathlib.Data.List.TakeWhile
import Septet.CommandLine.Invocation

/-!
# Command lines of words

A string that does not begin with a hyphen is a word (`classify_of_isPlain`), and a slot
takes words as they are.  So a command behind which plain strings stand is read with these
strings as its words, with or without the flag for the path of the store before it
(`read_strings`).
-/

set_option autoImplicit false

namespace Septet.CommandLine

/-! ## Plain strings -/

/-- A string that does not begin with a hyphen. -/
def IsPlain (text : String) : Prop :=
  text.toList.head? ≠ some '-'

instance (text : String) : Decidable (IsPlain text) :=
  inferInstanceAs (Decidable (_ ≠ _))

theorem IsPlain.ne_divider {text : String} (plain : IsPlain text) : text ≠ "--" := by
  rintro rfl
  exact plain rfl

theorem classify_of_isPlain (grammar : Grammar) {text : String} (plain : IsPlain text) :
    classify grammar text = .ok (.word text) := by
  unfold IsPlain at plain
  unfold classify
  split
  · next characters => exact absurd (by rw [characters]; rfl) plain
  · rfl

theorem classifyAll_of_isPlain (grammar : Grammar) (texts : List String) :
    (∀ text ∈ texts, IsPlain text) → classifyAll grammar texts = .ok (texts.map .word) := by
  induction texts with
  | nil => exact fun _ => rfl
  | cons text texts ih =>
      intro plain
      obtain ⟨here, later⟩ := List.forall_mem_cons.mp plain
      rw [classifyAll, if_neg here.ne_divider, classify_of_isPlain grammar here, ih later]
      rfl

/-! ## Slots -/

theorem any_isFlag_word (texts : List String) :
    (texts.map Token.word).any Token.isFlag = false := by
  simp [Token.isFlag]

theorem map_text_word (texts : List String) : (texts.map Token.word).map Token.text = texts := by
  rw [List.map_map]
  exact List.map_id texts

theorem splitDividers_word (texts : List String) :
    splitDividers (texts.map .word) = ([], texts.map .word) := by
  cases texts with
  | nil => rfl
  | cons text texts => simp [splitDividers, List.span_eq_takeWhile_dropWhile, Token.isDivider]

theorem splitWords_word (texts : List String) :
    splitWords (texts.map .word) = (texts.map .word, []) := by
  have all : ∀ token ∈ texts.map Token.word, (!token.isFlag) = true := by
    simp [Token.isFlag]
  rw [splitWords, List.span_eq_takeWhile_dropWhile, List.takeWhile_eq_self_iff.mpr all,
    List.dropWhile_eq_nil_iff.mpr all]

/-- A slot for words of any kind takes plain strings as they are. -/
theorem words_wordSlot (arity : Arity) {texts : List String}
    (plain : ∀ text ∈ texts, IsPlain text) :
    (wordSlot arity).words (texts.map .word) = .ok texts := by
  have kept : texts.erase "--" = texts :=
    List.erase_of_not_mem fun member => (plain _ member).ne_divider rfl
  simp [Slot.words, map_text_word, kept, wordSlot, -List.map_map]

/-- The first slot takes what it can, and then the other slots do. -/
theorem fill_cons {slot : Slot} {slots : List Slot} {tokens taken rest : List Token}
    {words : List String} (takes : slot.arity.take? tokens = some (taken, rest))
    (reads : slot.words taken = .ok words) :
    fill (slot :: slots) tokens =
      (fill slots rest).map fun filling => { filling with words := words :: filling.words } := by
  rw [fill, takes]
  dsimp only
  rw [reads]
  cases fill slots rest <;> rfl

theorem fill_one {text : String} (plain : IsPlain text) (slots : List Slot) (texts : List String) :
    fill (wordSlot .one :: slots) ((text :: texts).map .word) =
      (fill slots (texts.map .word)).map fun filling =>
        { filling with words := [text] :: filling.words } := by
  have taken : Arity.one.take? ((text :: texts).map .word) =
      some ([.word text], texts.map .word) := by
    have dividers := splitDividers_word (text :: texts)
    rw [List.map_cons] at dividers ⊢
    rw [Arity.take?, if_neg (by decide), dividers]
    dsimp only
    rw [Arity.splitFurther, splitDividers_word]
    rfl
  exact fill_cons taken (words_wordSlot .one (List.forall_mem_singleton.mpr plain))

theorem fill_any {texts : List String} (plain : ∀ text ∈ texts, IsPlain text) :
    fill [wordSlot .any] (texts.map .word) = .ok { words := [texts], slots := [], rest := [] } := by
  have taken : Arity.any.take? (texts.map .word) = some (texts.map .word, []) := by
    rw [Arity.take?, if_pos rfl, splitWords_word]
  exact fill_cons taken (words_wordSlot .any plain)

/-- The slot of a command takes the name of one and all that stands behind it, flags too. -/
theorem fill_command_tokens (name : CommandName) (tokens : List Token) :
    fill [commandSlot] (.word name.text :: tokens) =
      .ok { words := [name.text :: tokens.map Token.text], slots := [], rest := [] } := by
  have known : (CommandName.ofText? name.text).isSome = true := by
    cases name <;> decide
  have dividers : splitDividers (.word name.text :: tokens) = ([], .word name.text :: tokens) := by
    simp [splitDividers, List.span_eq_takeWhile_dropWhile, Token.isDivider]
  have taken : Arity.everything.take? (.word name.text :: tokens) =
      some (.word name.text :: tokens, []) := by
    rw [Arity.take?, if_neg (by decide), dividers]
    rfl
  have words : commandSlot.words (.word name.text :: tokens) =
      .ok (name.text :: tokens.map Token.text) := by
    simp only [Slot.words, commandSlot, List.map_cons, Token.text, if_true, List.take_succ_cons,
      List.take_zero, List.all_cons, List.all_nil, known, Bool.and_true]
  exact fill_cons taken words

theorem fill_command (name : CommandName) (texts : List String) :
    fill [commandSlot] ((name.text :: texts).map .word) =
      .ok { words := [name.text :: texts], slots := [], rest := [] } := by
  rw [List.map_cons, fill_command_tokens, map_text_word]

/-! ## Reading -/

namespace Arguments

variable {grammar : Grammar} {texts : List String} {words : List (List String)}

/-- Where no flag stands, the slots take what they can. -/
theorem readAll_of_no_flag (fuel : Nat) {arguments : Arguments} {tokens : List Token}
    (noFlag : tokens.any Token.isFlag = false)
    (filled : fill arguments.slots tokens = .ok { words, slots := [], rest := [] }) :
    readAll grammar (fuel + 1) arguments tokens =
      .ok { arguments with words := arguments.words ++ words, slots := [] } := by
  unfold readAll
  simp only [noFlag, Bool.not_false, if_true, fillFrom, filled, bind, Except.bind, leave,
    List.map_nil, List.append_nil]

theorem readAll_words (fuel : Nat) {arguments : Arguments}
    (filled : fill arguments.slots (texts.map .word) = .ok { words, slots := [], rest := [] }) :
    readAll grammar (fuel + 1) arguments (texts.map .word) =
      .ok { arguments with words := arguments.words ++ words, slots := [] } :=
  readAll_of_no_flag fuel (any_isFlag_word texts) filled

/-- A flag takes the word behind it as its value. -/
theorem readAll_flag (fuel : Nat) (arguments : Arguments) (text name value : String)
    (behind : List Token) :
    readAll grammar (fuel + 1) arguments (.flag text (.named name none) :: .word value :: behind) =
      (arguments.give grammar name value).bind fun given => readAll grammar fuel given behind := by
  rw [readAll]
  simp only [List.any_cons, Token.isFlag, Bool.true_or, Bool.not_true, Bool.false_eq_true, if_false,
    useFlag]
  cases arguments.give grammar name value <;> rfl

theorem read_words (plain : ∀ text ∈ texts, IsPlain text)
    (filled : fill grammar.slots (texts.map .word) = .ok { words, slots := [], rest := [] }) :
    read grammar texts = .ok { words, slots := [] } := by
  rw [read, classifyAll_of_isPlain grammar texts plain]
  simp only [bind, Except.bind]
  rw [readAll_words _ filled]
  rfl

end Arguments

/-- The strings that name the store on a command line, if it is named there. -/
def storeStrings : Option String → List String
  | none => []
  | some text => [storeFlag.name, text]

/-- How the path of the store occurs. -/
def storeOccurrence : Option String → Occurrence String
  | none => .absent
  | some text => .given text

theorem read_shared {place : Option String} (plainPlace : ∀ text ∈ place, IsPlain text)
    (name : CommandName) {texts : List String} (plain : ∀ text ∈ texts, IsPlain text) :
    ∃ shared, Arguments.read sharedGrammar (storeStrings place ++ name.text :: texts) = .ok shared ∧
      shared.words = [name.text :: texts] ∧ shared.leftOver = [] ∧
      shared.occurrence storeFlag.name = storeOccurrence place ∧
      shared.occurrence logFileFlag.name = .absent ∧
      shared.occurrence logLevelFlag.name = .absent := by
  have filled := fill_command name texts
  have plainName : IsPlain name.text := by cases name <;> decide
  have plainAll : ∀ text ∈ name.text :: texts, IsPlain text :=
    List.forall_mem_cons.mpr ⟨plainName, plain⟩
  cases place with
  | none =>
      have read : Arguments.read sharedGrammar (name.text :: texts) = .ok _ :=
        Arguments.read_words plainAll filled
      exact ⟨_, read, rfl, rfl, rfl, rfl, rfl⟩
  | some path =>
      have flag : classify sharedGrammar storeFlag.name =
          .ok (.flag storeFlag.name (.named storeFlag.name none)) := by decide +kernel
      have tokens : classifyAll sharedGrammar (storeFlag.name :: path :: name.text :: texts) =
          .ok (.flag storeFlag.name (.named storeFlag.name none) ::
            .word path :: (name.text :: texts).map .word) := by
        have words := classifyAll_of_isPlain sharedGrammar (path :: name.text :: texts)
          (List.forall_mem_cons.mpr ⟨plainPlace path rfl, plainAll⟩)
        rw [classifyAll, if_neg (by decide), flag, words]
        rfl
      have given (arguments : Arguments) : arguments.give sharedGrammar storeFlag.name path =
          .ok { arguments with flags := (storeFlag.name, some path) :: arguments.flags } := rfl
      refine ⟨{
        flags := [(storeFlag.name, some path)]
        words := [name.text :: texts]
        slots := [] }, ?_, rfl, rfl, rfl, rfl, rfl⟩
      rw [Arguments.read, storeStrings]
      simp only [List.cons_append, List.nil_append, tokens, bind, Except.bind]
      rw [Arguments.readAll_flag, given, List.length_cons]
      dsimp only [Except.bind]
      have words (fuel : Nat) : Arguments.readAll sharedGrammar (fuel + 1)
          { flags := [(storeFlag.name, some path)], slots := sharedGrammar.slots }
          ((name.text :: texts).map .word) = .ok {
            flags := [(storeFlag.name, some path)]
            words := [name.text :: texts]
            slots := [] } := Arguments.readAll_words fuel filled
      rw [words]
      rfl

/-! ## Orders -/

/-- What is asked for with the records of a store. -/
inductive Order where
  | put (name : String) (fields : List String)
  | get (name : String)
  | delete (name : String)
  deriving DecidableEq, Repr

namespace Order

def commandName : Order → CommandName
  | put _ _ => .put
  | get _ => .get
  | delete _ => .delete

/-- The strings behind the name of the command. -/
def texts : Order → List String
  | put name fields => name :: fields
  | get name => [name]
  | delete name => [name]

def command : Order → Command
  | put name fields => .put name fields
  | get name => .get name
  | delete name => .delete name

/-- The strings of a command line. -/
def strings (place : Option String) (order : Order) : List String :=
  storeStrings place ++ order.commandName.text :: order.texts

/-- An order is read with its own strings as its words. -/
theorem read_texts {order : Order} (plain : ∀ text ∈ order.texts, IsPlain text) :
    ∃ own, Arguments.read order.commandName.grammar order.texts = .ok own ∧ own.leftOver = [] ∧
      Command.ofArguments order.commandName own = .ok order.command := by
  have single (name : String) (here : IsPlain name) :
      fill [wordSlot .one] ([name].map .word) = .ok { words := [[name]], slots := [], rest := [] } := by
    rw [fill_one here]
    rfl
  cases order with
  | put name fields =>
      obtain ⟨here, later⟩ := List.forall_mem_cons.mp plain
      have filled : fill CommandName.put.grammar.slots ((name :: fields).map .word) =
          .ok { words := [[name], fields], slots := [], rest := [] } := by
        refine (fill_one here [wordSlot .any] fields).trans ?_
        rw [fill_any later]
        rfl
      exact ⟨_, Arguments.read_words plain filled, rfl, rfl⟩
  | get name =>
      have filled : fill CommandName.get.grammar.slots ([name].map .word) = _ :=
        single name (plain name List.mem_cons_self)
      exact ⟨_, Arguments.read_words plain filled, rfl, rfl⟩
  | delete name =>
      have filled : fill CommandName.delete.grammar.slots ([name].map .word) = _ :=
        single name (plain name List.mem_cons_self)
      exact ⟨_, Arguments.read_words plain filled, rfl, rfl⟩

end Order

theorem ofText?_text (name : CommandName) : CommandName.ofText? name.text = some name := by
  cases name <;> decide

/-- **A command line of words is read as the order that it was written for.** -/
theorem read_strings {place : Option String} (plainPlace : ∀ text ∈ place, IsPlain text)
    {order : Order} (plain : ∀ text ∈ order.texts, IsPlain text) :
    Invocation.read (order.strings place) = .ok {
      storePath := storeOccurrence place
      logFile := none
      logLevel := none
      command := order.command } := by
  obtain ⟨shared, read, words, none, store, file, level⟩ :=
    read_shared plainPlace order.commandName plain
  obtain ⟨own, readOwn, ownNone, command⟩ := Order.read_texts plain
  rw [Invocation.read, Order.strings, read]
  simp only [bind, Except.bind, words, ofText?_text, readOwn, none, ownNone, List.append_nil,
    List.isEmpty_nil, Bool.not_true, Bool.false_eq_true, if_false, command, store, file, level]
  rfl

end Septet.CommandLine
