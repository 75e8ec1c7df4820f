import Septet.Proofs.Quantity.Spelling
import Septet.Proofs.Stream.Run
import Septet.Proofs.Stream.Writing

/-!
# Buffers and files are interchangeable

A buffer source and a file that stand at the same position of the same bytes are
mirrors of each other.  Reading a byte gives both the same byte, or tells both that
there is none, and leaves them mirrors (`readsAlike_next`).  Operations that are made of
such ones inherit it (`ReadsAlike.bind`), so reading a quantity does as well
(`readsAlike_unpack`), also where it fails in the middle of one.

A buffer sink and a file whose position is at its end hold the same bytes as long as
both are given the same, and both refuse what is no byte
(`WriteStep.perform_of_refused`, `WriteStep.perform_of_taken`).

Hence no run of readings tells a buffer from a file, and no run of writings does,
whatever failures occur on the way (`visits_agree`).
-/

set_option autoImplicit false

namespace Septet

variable {α β σ : Type}

/-! ## Reading -/

/-- A source and a file that stand at the same position of the same bytes. -/
structure Mirrors (content : Bytes) (source : BufferSource) (file : ByteFile) : Prop where
  unread : source.unread = content.drop source.position
  eq_file : file = { content, position := source.position }

/-- The same value, or failures of the same kind. -/
inductive SameAnswer : Except StreamError α → Except StreamError α → Prop where
  | value (value : α) : SameAnswer (.ok value) (.ok value)
  | exhausted (offset : Nat) : SameAnswer (.error (.bufferExhausted offset)) (.error .fileExhausted)
  | overlong (width : Width) : SameAnswer (.error (.overlong width)) (.error (.overlong width))

theorem SameAnswer.eq_ok {value : α} {answer : Except StreamError α}
    (same : SameAnswer (.ok value) answer) : answer = .ok value := by
  cases same
  rfl

/-- From mirrors, two operations give the same answer and leave mirrors. -/
def ReadsAlike (content : Bytes) (inBuffer : StreamM BufferSource α) (inFile : StreamM ByteFile α) :
    Prop :=
  ∀ ⦃source : BufferSource⦄ ⦃file : ByteFile⦄, Mirrors content source file →
    SameAnswer (inBuffer.outcome source) (inFile.outcome file) ∧
      Mirrors content (inBuffer.left source) (inFile.left file)

variable {content : Bytes}

theorem readsAlike_pure (value : α) : ReadsAlike content (pure value) (pure value) :=
  fun _ _ mirrors => ⟨.value value, mirrors⟩

/-- Operations that read alike may be put together. -/
theorem ReadsAlike.bind {first : StreamM BufferSource α} {first' : StreamM ByteFile α}
    {second : α → StreamM BufferSource β} {second' : α → StreamM ByteFile β}
    (alike : ReadsAlike content first first')
    (others : ∀ value, ReadsAlike content (second value) (second' value)) :
    ReadsAlike content (first >>= second) (first' >>= second') := by
  intro source file mirrors
  obtain ⟨same, after⟩ := alike mirrors
  rw [StreamM.outcome_bind, StreamM.outcome_bind, StreamM.left_bind, StreamM.left_bind]
  generalize first.outcome source = answer at same ⊢
  generalize first'.outcome file = answer' at same ⊢
  cases same with
  | value value => exact others value after
  | exhausted offset => exact ⟨.exhausted offset, after⟩
  | overlong width => exact ⟨.overlong width, after⟩

/-- A file gives the byte at its position, and behind its end none. -/
theorem ByteFile.next_eq (position : Nat) :
    (ByteSource.next : StreamM ByteFile UInt8) { content, position } =
      match content[position]? with
      | none => .error .fileExhausted { content, position }
      | some byte => .ok byte { content, position := position + 1 } := by
  change (match content[position]? with
    | none => throw StreamError.fileExhausted
    | some byte => do
        set ({ content, position := position + 1 } : ByteFile)
        pure byte : StreamM ByteFile UInt8) { content, position } = _
  cases content[position]? with
  | none => rfl
  | some byte => rfl

/-- **A byte is read alike, and so is the end.** -/
theorem readsAlike_next :
    ReadsAlike content (ByteSource.next : StreamM BufferSource UInt8) ByteSource.next := by
  rintro ⟨position, unread⟩ file ⟨standing, same⟩
  simp only at standing same
  subst same
  cases unread with
  | nil =>
      have inBuffer : (ByteSource.next : StreamM BufferSource UInt8) ⟨position, []⟩ =
          .error (.bufferExhausted position) ⟨position, []⟩ := rfl
      have none : content[position]? = none := by
        rw [← List.head?_drop, ← standing, List.head?_nil]
      have inFile : (ByteSource.next : StreamM ByteFile UInt8) { content, position } =
          .error .fileExhausted { content, position } := by
        rw [ByteFile.next_eq, none]
      rw [StreamM.outcome_error inBuffer, StreamM.outcome_error inFile,
        StreamM.left_error inBuffer, StreamM.left_error inFile]
      exact ⟨.exhausted position, standing, rfl⟩
  | cons byte rest =>
      have inBuffer : (ByteSource.next : StreamM BufferSource UInt8) ⟨position, byte :: rest⟩ =
          .ok byte ⟨position + 1, rest⟩ := rfl
      have some : content[position]? = some byte := by
        rw [← List.head?_drop, ← standing, List.head?_cons]
      have inFile : (ByteSource.next : StreamM ByteFile UInt8) { content, position } =
          .ok byte { content, position := position + 1 } := by
        rw [ByteFile.next_eq, some]
      have behind : rest = content.drop (position + 1) := by
        rw [← List.tail_drop, ← standing, List.tail_cons]
      rw [StreamM.outcome_ok inBuffer, StreamM.outcome_ok inFile, StreamM.left_ok inBuffer,
        StreamM.left_ok inFile]
      exact ⟨.value byte, behind, rfl⟩

theorem readsAlike_unpackGroups (width : Width) (left : Nat) : ∀ place total : Nat,
    ReadsAlike content (Quantity.unpackGroups width left place total)
      (Quantity.unpackGroups width left place total) := by
  induction left with
  | zero => exact fun place total source file mirrors => ⟨.overlong width, mirrors⟩
  | succ left ih =>
      intro place total
      refine readsAlike_next.bind fun byte => ?_
      by_cases final : byte.toNat < 128
      · simp only [final, if_true]
        exact readsAlike_pure _
      · simp only [final, if_false]
        exact ih _ _

/-- **A quantity is read alike**, or refused for the same reason after the same bytes. -/
theorem readsAlike_unpack (width : Width) :
    ReadsAlike content (Quantity.unpack width) (Quantity.unpack width) :=
  readsAlike_unpackGroups width width.maxBytes 1 0

/-! ## Runs of readings -/

/-- What a source can be asked for. -/
inductive ReadStep where
  | byte
  | quantity (width : Width)
  deriving DecidableEq, Repr

def ReadStep.perform [ByteSource σ] : ReadStep → StreamM σ Nat
  | byte => do
      let byte ← ByteSource.next
      pure byte.toNat
  | quantity width => Quantity.unpack width

theorem ReadStep.readsAlike (step : ReadStep) :
    ReadsAlike content step.perform step.perform := by
  cases step with
  | byte => exact readsAlike_next.bind fun byte => readsAlike_pure byte.toNat
  | quantity width => exact readsAlike_unpack width

/-- A source in a buffer and one in a file answer a step alike and are at the same position then. -/
structure SourcesAgree (inBuffer : StreamM.Visit ReadStep BufferSource Nat)
    (inFile : StreamM.Visit ReadStep ByteFile Nat) : Prop where
  step : inBuffer.step = inFile.step
  answer : SameAnswer inBuffer.outcome inFile.outcome
  position : inBuffer.after.position = inFile.after.position

theorem sourcesAgree_visit (step : ReadStep) {source : BufferSource} {file : ByteFile}
    (mirrors : Mirrors content source file) :
    SourcesAgree (StreamM.visit ReadStep.perform step source)
        (StreamM.visit ReadStep.perform step file) ∧
      Mirrors content (StreamM.visit ReadStep.perform step source).after
        (StreamM.visit ReadStep.perform step file).after := by
  obtain ⟨same, after⟩ := step.readsAlike mirrors
  refine ⟨⟨rfl, same, ?_⟩, after⟩
  rw [StreamM.visit, StreamM.visit, after.eq_file]

/-! ## Runs of writings -/

/-- What a sink can be given. -/
inductive WriteStep where
  | byte (value : Int)
  | quantity (width : Width) (value : Int)
  deriving DecidableEq, Repr

namespace WriteStep

def perform [ByteSink σ] : WriteStep → StreamM σ Unit
  | byte value => ByteSink.writeByte value
  | quantity width value => Quantity.pack width value

/-- An integer that is no byte cannot be written as one. -/
def Refused : WriteStep → Prop
  | byte value => value < 0 ∨ 255 < value
  | quantity _ _ => False

/-- The bytes that are written for a step. -/
def bytes : WriteStep → Bytes
  | byte value => [UInt8.ofNat value.toNat]
  | quantity width value => Quantity.encode width value

theorem perform_of_refused [ByteSink σ] {step : WriteStep} (refused : step.Refused) :
    (step.perform : StreamM σ Unit) = throw (.notByte (ByteSink.medium σ)) := by
  cases step with
  | byte value =>
      have outside : ¬(0 ≤ value ∧ value < 256) := by
        simp only [Refused] at refused
        omega
      exact if_neg outside
  | quantity width value => exact refused.elim

theorem perform_of_taken [ByteSink σ] {step : WriteStep} (taken : ¬step.Refused) :
    (step.perform : StreamM σ Unit) = ByteSink.putAll step.bytes := by
  cases step with
  | byte value =>
      have inside : 0 ≤ value ∧ value < 256 := by
        simp only [Refused] at taken
        omega
      rw [perform, ByteSink.writeByte, if_pos inside, bytes, ByteSink.putAll, ByteSink.putAll,
        bind_pure_unit]
  | quantity width value => rfl

end WriteStep

theorem putAll_buffer (bytes : Bytes) : ∀ sink : BufferSink,
    ByteSink.putAll bytes sink = .ok () { sink with bytes := sink.bytes ++ bytes } := by
  induction bytes with
  | nil =>
      intro sink
      rw [List.append_nil]
      rfl
  | cons byte bytes ih =>
      intro sink
      have first : ByteSink.put byte sink = .ok () { sink with bytes := sink.bytes ++ [byte] } :=
        rfl
      simp only [ByteSink.putAll, bind, EStateM.bind, first, ih, List.append_assoc,
        List.singleton_append]

/-- A file that has been written from its beginning on. -/
def ByteFile.holding (content : Bytes) : ByteFile :=
  { content, position := content.length }

theorem ByteFile.written_holding (content bytes : Bytes) :
    (ByteFile.holding content).written bytes = ByteFile.holding (content ++ bytes) := by
  simp [ByteFile.written, ByteFile.holding]

theorem putAll_holding (content bytes : Bytes) :
    ByteSink.putAll bytes (ByteFile.holding content) =
      .ok () (ByteFile.holding (content ++ bytes)) := by
  have inside : (ByteFile.holding content).Inside := Nat.le_refl _
  rw [ByteFile.putAll_of_allows inside (ByteFile.allows_of_unlimited rfl),
    ByteFile.written_holding]

/-- A sink in a buffer and one in a file hold the same bytes after a step.  Both refuse it, and stay
as they are, or both take it. -/
structure SinksAgree (inBuffer : StreamM.Visit WriteStep BufferSink Unit)
    (inFile : StreamM.Visit WriteStep ByteFile Unit) : Prop where
  step : inBuffer.step = inFile.step
  bytes : inBuffer.after.bytes = inFile.after.content
  refused : inBuffer.step.Refused →
    inBuffer.outcome = .error (.notByte .buffer) ∧ inBuffer.after = inBuffer.before ∧
      inFile.outcome = .error (.notByte .file) ∧ inFile.after = inFile.before
  taken : ¬inBuffer.step.Refused → inBuffer.outcome = .ok () ∧ inFile.outcome = .ok ()

/-- A file that holds what a buffer sink does, and is to be continued. -/
def Duplicates (sink : BufferSink) (file : ByteFile) : Prop :=
  file = ByteFile.holding sink.bytes

theorem sinksAgree_visit (step : WriteStep) {sink : BufferSink} {file : ByteFile}
    (duplicates : Duplicates sink file) :
    SinksAgree (StreamM.visit WriteStep.perform step sink)
        (StreamM.visit WriteStep.perform step file) ∧
      Duplicates (StreamM.visit WriteStep.perform step sink).after
        (StreamM.visit WriteStep.perform step file).after := by
  cases duplicates
  by_cases refused : step.Refused
  · have inBuffer : step.perform sink = .error (.notByte .buffer) sink := by
      rw [WriteStep.perform_of_refused refused]
      rfl
    have inFile : step.perform (ByteFile.holding sink.bytes) =
        .error (.notByte .file) (ByteFile.holding sink.bytes) := by
      rw [WriteStep.perform_of_refused refused]
      rfl
    simp only [StreamM.visit, StreamM.outcome_error inBuffer, StreamM.outcome_error inFile,
      StreamM.left_error inBuffer, StreamM.left_error inFile]
    exact ⟨⟨rfl, rfl, fun _ => ⟨rfl, rfl, rfl, rfl⟩, fun taken => absurd refused taken⟩, rfl⟩
  · have inBuffer : step.perform sink = .ok () { bytes := sink.bytes ++ step.bytes } := by
      rw [WriteStep.perform_of_taken refused, putAll_buffer]
    have inFile : step.perform (ByteFile.holding sink.bytes) =
        .ok () (ByteFile.holding (sink.bytes ++ step.bytes)) := by
      rw [WriteStep.perform_of_taken refused, putAll_holding]
    simp only [StreamM.visit, StreamM.outcome_ok inBuffer, StreamM.outcome_ok inFile,
      StreamM.left_ok inBuffer, StreamM.left_ok inFile]
    exact ⟨⟨rfl, rfl, fun there => absurd there refused, fun _ => ⟨rfl, rfl⟩⟩, rfl⟩

/-! ## Any runs -/

/-- **A run does not tell a buffer from a file.**  Sources that start at the same position of the
same bytes give the same value or the same failure at each step, and stand at the same position
after it.  Sinks that start empty hold the same bytes after each step, and both refuse what is no
byte.  All steps are taken, those behind a failure too. -/
theorem visits_agree {content : Bytes} {position : Nat} (inside : position ≤ content.length)
    (reads : List ReadStep) (writes : List WriteStep) :
    (∃ source : BufferSource, BufferSource.startingAt content position = .ok source ∧
        source.position = position ∧
        (StreamM.visits ReadStep.perform reads source).map StreamM.Visit.step = reads ∧
        List.Forall₂ SourcesAgree (StreamM.visits ReadStep.perform reads source)
          (StreamM.visits ReadStep.perform reads ({ content, position } : ByteFile))) ∧
      (StreamM.visits WriteStep.perform writes ({} : BufferSink)).map StreamM.Visit.step = writes ∧
        List.Forall₂ SinksAgree (StreamM.visits WriteStep.perform writes ({} : BufferSink))
          (StreamM.visits WriteStep.perform writes ({} : ByteFile)) := by
  have started : BufferSource.startingAt content position =
      .ok { position, unread := content.drop position } :=
    Quantity.startingAt_inside (Int.natCast_nonneg position) (Int.ofNat_le.mpr inside)
  refine ⟨⟨_, started, rfl, StreamM.map_step_visits _ _ _, ?_⟩, StreamM.map_step_visits _ _ _, ?_⟩
  · exact StreamM.forall₂_visits sourcesAgree_visit reads ⟨rfl, rfl⟩
  · exact StreamM.forall₂_visits sinksAgree_visit writes rfl

/-- A quantity ends too early and the run goes on behind it; then an integer is no byte. -/
theorem visits_agree_exhausted :
    1 ≤ ([9, 0x80, 0xFF] : Bytes).length ∧
      List.Forall₂ SourcesAgree
        (StreamM.visits ReadStep.perform [.quantity .bits32, .byte]
          ({ position := 1, unread := [0x80, 0xFF] } : BufferSource))
        (StreamM.visits ReadStep.perform [.quantity .bits32, .byte]
          ({ content := [9, 0x80, 0xFF], position := 1 } : ByteFile)) ∧
      List.Forall₂ SinksAgree
        (StreamM.visits WriteStep.perform [.byte 256, .quantity .bits32 300] ({} : BufferSink))
        (StreamM.visits WriteStep.perform [.byte 256, .quantity .bits32 300] ({} : ByteFile)) := by
  have inside : 1 ≤ ([9, 0x80, 0xFF] : Bytes).length := by decide
  obtain ⟨⟨source, started, _, _, reads⟩, _, writes⟩ :=
    visits_agree inside [.quantity .bits32, .byte] [.byte 256, .quantity .bits32 300]
  cases started
  exact ⟨inside, reads, writes⟩

end Septet
