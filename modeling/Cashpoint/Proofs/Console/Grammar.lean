/-
# The grammars of the two consoles

Both consoles read a line by its words. Which words stand for which command is told by
two relations, `AtmCommand.Spells` and `BankCommand.Spells`, with user names, PINs and
amounts given by their characters. A console `Reads` the lines of such a grammar and no
others: a line is a command just as the grammar says, and is otherwise refused because
there is no word in it, with the usage line of its verb, or because its verb is unknown.
A command that was read is read again from the line it is written as.

A console hands the arguments of a line to the handler of its verb (`dispatch`). So it is
enough that every handler does right by its own verb (`Handler.Follows`, `reads_of_handlers`).
-/

import Cashpoint.Console.AtmCommand
import Cashpoint.Console.BankCommand
import Cashpoint.Proofs.Amount.Digits
import Mathlib.Data.List.Nodup

namespace Cashpoint

/-! ## Names and PINs by their characters -/

namespace Credential

/-- 1 to 250 ASCII letters. -/
structure UserName (text : String) : Prop where
  length_pos : 1 ≤ text.toList.length
  length_le : text.toList.length ≤ 250
  letters : ∀ c ∈ text.toList, 'A' ≤ c ∧ c ≤ 'Z' ∨ 'a' ≤ c ∧ c ≤ 'z'

/-- Four ASCII digits. -/
structure Pin (text : String) : Prop where
  length_eq : text.toList.length = 4
  digits : ∀ c ∈ text.toList, '0' ≤ c ∧ c ≤ '9'

/-- The letters are those from `A` to `Z` and from `a` to `z`. -/
theorem isAlpha_iff {c : Char} : c.isAlpha = true ↔ 'A' ≤ c ∧ c ≤ 'Z' ∨ 'a' ≤ c ∧ c ≤ 'z' := by
  have hletter : c.isAlpha = (decide (c.val ≥ 'A'.val ∧ c.val ≤ 'Z'.val) || (c.val ≥ 'a'.val && c.val ≤ 'z'.val)) := rfl
  rw [hletter]
  simp [Char.le_def]

/-- A user name is tested for just that. -/
theorem isUserName_iff {text : String} : isUserName text = true ↔ UserName text := by
  simp only [isUserName, Bool.and_eq_true, decide_eq_true_eq, List.all_eq_true, isAlpha_iff]
  exact ⟨fun h => ⟨h.1.1, h.1.2, h.2⟩, fun h => ⟨⟨h.length_pos, h.length_le⟩, h.letters⟩⟩

/-- A PIN is tested for just that. -/
theorem isPin_iff {text : String} : isPin text = true ↔ Pin text := by
  simp only [isPin, Bool.and_eq_true, beq_iff_eq, List.all_eq_true, Amount.isDigit_iff]
  exact ⟨fun h => ⟨h.1, h.2⟩, fun h => ⟨h.length_eq, h.digits⟩⟩

/-- A user name is a word. -/
theorem UserName.isWord {text : String} (h : UserName text) : Text.IsWord text :=
  isWord_userName (isUserName_iff.2 h)

/-- A PIN is a word. -/
theorem Pin.isWord {text : String} (h : Pin text) : Text.IsWord text := by
  refine ⟨fun hnil => ?_, fun c hc => Amount.isBlank_of_digit (h.digits c hc)⟩
  have hlength := h.length_eq
  rw [hnil] at hlength
  simp at hlength

end Credential

namespace Console

/-! ## Consoles in general -/

/-- The first word of the lines that a usage line is about. -/
def Usage.verb : Usage → String
  | beginSession => "begin-session"
  | withdraw => "withdraw"
  | ownBalance | balanceOf => "balance"
  | endSession => "end-session"
  | createUser => "create-user"
  | deposit => "deposit"

/-- A usage line shows its verb. -/
theorem Usage.verb_prefix_line (usage : Usage) : ("Usage: " ++ usage.verb).toList <+: usage.line.toList := by
  cases usage <;> decide

variable {Command : Type}

/-- What a console makes of the words of a line. -/
structure Judged (Spells : List String → Command → Prop) (usages : List Usage) (words : List String)
    (answer : Except Rejection Command) : Prop where
  ok_iff : ∀ command, answer = .ok command ↔ Spells words command
  empty_iff : answer = .error .empty ↔ words = []
  usage_iff : ∀ usage, answer = .error (.usage usage) ↔
    usage ∈ usages ∧ words.head? = some usage.verb ∧ ∀ command, ¬ Spells words command
  invalid_iff : answer = .error .invalid ↔ words ≠ [] ∧ ∀ usage ∈ usages, words.head? ≠ some usage.verb

/-- A console that reads the lines of a grammar, and writes commands in it. -/
structure Reads (ofLine : String → Except Rejection Command) (render : Command → String)
    (Spells : List String → Command → Prop) (usages : List Usage) : Prop where
  judged : ∀ line words, Text.Spaced line.toList words → Judged Spells usages words (ofLine line)
  words_decide : ∀ line line' words, Text.Spaced line.toList words → Text.Spaced line'.toList words →
    ofLine line = ofLine line'
  ofLine_render : ∀ line command, ofLine line = .ok command → ofLine (render command) = .ok command

/-- What is done with the arguments of a verb. -/
structure Handler (Command : Type) where
  usage : Usage
  run : List String → Except Rejection Command

/-- The answer of the handler that has the first word for its verb. -/
def dispatch (handlers : List (Handler Command)) : List String → Except Rejection Command
  | [] => .error .empty
  | verb :: arguments =>
    match handlers.find? fun handler => verb = handler.usage.verb with
    | some handler => handler.run arguments
    | none => .error .invalid

/-- A handler answers with a command that the line stands for, or with its usage line. -/
def Handler.Follows (handler : Handler Command) (Spells : List String → Command → Prop) : Prop :=
  ∀ arguments, handler.run arguments = .error (.usage handler.usage) ∨
    ∃ command, Spells (handler.usage.verb :: arguments) command ∧ handler.run arguments = .ok command

section

variable {handlers : List (Handler Command)} {Spells : List String → Command → Prop}

/-- A line whose first word is no verb of the console is invalid. -/
theorem dispatch_of_unknown {verb : String} (h : ∀ handler ∈ handlers, verb ≠ handler.usage.verb)
    (arguments : List String) : dispatch handlers (verb :: arguments) = .error .invalid := by
  have hnone : (handlers.find? fun handler => verb = handler.usage.verb) = none := by
    simpa [List.find?_eq_none] using h
  simp only [dispatch, hnone]

/-- A line is handled by the handler of its verb. -/
theorem dispatch_of_mem (hverbs : (handlers.map fun handler => handler.usage.verb).Nodup)
    {handler : Handler Command} (h : handler ∈ handlers) (arguments : List String) :
    dispatch handlers (handler.usage.verb :: arguments) = handler.run arguments := by
  cases hfound : handlers.find? fun other => handler.usage.verb = other.usage.verb with
  | none => exact absurd (List.find?_eq_none.1 hfound handler h) (by simp)
  | some other =>
    have hverb : handler.usage.verb = other.usage.verb := by simpa using List.find?_some hfound
    obtain rfl : handler = other :=
      List.inj_on_of_nodup_map hverbs h (List.mem_of_find?_eq_some hfound) hverb
    simp only [dispatch, hfound]

/-- A line that stands for no command and whose first word is no verb. -/
theorem judged_of_unknown {verb : String} (h : ∀ handler ∈ handlers, verb ≠ handler.usage.verb)
    {arguments : List String} (hnone : ∀ command, ¬ Spells (verb :: arguments) command) :
    Judged Spells (handlers.map Handler.usage) (verb :: arguments) (.error .invalid) := by
  constructor
  · simp [hnone]
  · simp
  · intro usage
    simp only [reduceCtorEq, Except.error.injEq, false_iff, not_and]
    intro husage hhead
    obtain ⟨handler, hmem, rfl⟩ := List.mem_map.1 husage
    exact absurd (Option.some.inj hhead) (h handler hmem)
  · simpa using h

/-- A line whose first word is the verb of a handler. -/
theorem judged_of_mem (hverbs : (handlers.map fun handler => handler.usage.verb).Nodup)
    {handler : Handler Command} (h : handler ∈ handlers) (hfollows : handler.Follows Spells)
    {arguments : List String} (hcomplete : ∀ command, Spells (handler.usage.verb :: arguments) command →
      handler.run arguments = .ok command) :
    Judged Spells (handlers.map Handler.usage) (handler.usage.verb :: arguments) (handler.run arguments) := by
  have hmem : handler.usage ∈ handlers.map Handler.usage := List.mem_map_of_mem h
  -- No other handler has this verb, so no other usage line can be meant.
  have honly : ∀ usage ∈ handlers.map Handler.usage, usage.verb = handler.usage.verb → usage = handler.usage := by
    intro usage husage hverb
    obtain ⟨other, hother, rfl⟩ := List.mem_map.1 husage
    rw [List.inj_on_of_nodup_map hverbs hother h hverb]
  rcases hfollows arguments with herror | ⟨command, hspells, hok⟩
  · have hnone : ∀ command, ¬ Spells (handler.usage.verb :: arguments) command := by
      intro command hcommand
      rw [hcomplete command hcommand] at herror
      simp at herror
    rw [herror]
    constructor
    · simp [hnone]
    · simp
    · intro usage
      constructor
      · intro heq
        obtain rfl : handler.usage = usage := by simpa using heq
        exact ⟨hmem, rfl, hnone⟩
      · rintro ⟨husage, hhead, -⟩
        rw [honly usage husage (Option.some.inj hhead).symm]
    · simp only [Except.error.injEq, reduceCtorEq, false_iff]
      rintro ⟨-, hunknown⟩
      exact hunknown _ hmem rfl
  · rw [hok]
    constructor
    · intro other
      constructor
      · intro heq
        obtain rfl : command = other := Except.ok.inj heq
        exact hspells
      · intro hother
        rw [← hok, hcomplete other hother]
    · simp
    · intro usage
      simp only [reduceCtorEq, false_iff]
      rintro ⟨-, -, hnone⟩
      exact hnone command hspells
    · simp only [reduceCtorEq, false_iff]
      rintro ⟨-, hunknown⟩
      exact hunknown _ hmem rfl

/-- **A console judges its lines by a grammar** if its handlers follow it and all commands of it are dispatched. -/
theorem judged_dispatch (hverbs : (handlers.map fun handler => handler.usage.verb).Nodup)
    (hfollows : ∀ handler ∈ handlers, handler.Follows Spells)
    (hcomplete : ∀ words command, Spells words command → dispatch handlers words = .ok command)
    (words : List String) : Judged Spells (handlers.map Handler.usage) words (dispatch handlers words) := by
  cases words with
  | nil =>
    have hnone : ∀ command, ¬ Spells [] command := fun command h => nomatch hcomplete _ _ h
    constructor <;> simp [dispatch, hnone]
  | cons verb arguments =>
    by_cases hknown : ∃ handler ∈ handlers, verb = handler.usage.verb
    · obtain ⟨handler, hmem, rfl⟩ := hknown
      rw [dispatch_of_mem hverbs hmem]
      refine judged_of_mem hverbs hmem (hfollows handler hmem) fun command hcommand => ?_
      rw [← dispatch_of_mem hverbs hmem, hcomplete _ _ hcommand]
    · have hunknown : ∀ handler ∈ handlers, verb ≠ handler.usage.verb :=
        fun handler hmem h => hknown ⟨handler, hmem, h⟩
      have hnone : ∀ command, ¬ Spells (verb :: arguments) command := by
        intro command hcommand
        have hdispatch := hcomplete _ _ hcommand
        rw [dispatch_of_unknown hunknown] at hdispatch
        simp at hdispatch
      rw [dispatch_of_unknown hunknown]
      exact judged_of_unknown hunknown hnone

/-- **Such a console reads the grammar.** -/
theorem reads_of_handlers {ofLine : String → Except Rejection Command} {render : Command → String}
    (hofLine : ∀ line, ofLine line = dispatch handlers (Text.words line))
    (hverbs : (handlers.map fun handler => handler.usage.verb).Nodup)
    (hfollows : ∀ handler ∈ handlers, handler.Follows Spells)
    (hcomplete : ∀ words command, Spells words command → dispatch handlers words = .ok command)
    (hrender : ∀ words command, Spells words command → Spells (Text.words (render command)) command) :
    Reads ofLine render Spells (handlers.map Handler.usage) where
  judged line words h := by
    rw [hofLine, Text.spaced_iff.1 h]
    exact judged_dispatch hverbs hfollows hcomplete words
  words_decide line line' words h h' := by
    rw [hofLine, hofLine, Text.spaced_iff.1 h, Text.spaced_iff.1 h']
  ofLine_render line command h := by
    rw [hofLine] at h ⊢
    have hwords := ((judged_dispatch hverbs hfollows hcomplete _).ok_iff command).1 h
    exact hcomplete _ _ (hrender _ _ hwords)

end

/-! ## At the ATM -/

namespace AtmCommand

/-- The words of the lines that stand for a command. -/
def Spells (words : List String) : AtmCommand → Prop
  | beginSession user => Credential.UserName user ∧ words = ["begin-session", user]
  | withdraw amount => ∃ digits, Amount.Spells digits amount ∧ words = ["withdraw", digits]
  | balance => words = ["balance"]
  | endSession => words = ["end-session"]

/-- What the ATM does with the arguments of each verb. -/
def handlers : List (Handler AtmCommand) :=
  [⟨.beginSession, beginSessionOf⟩, ⟨.withdraw, withdrawOf⟩, ⟨.ownBalance, balanceOf⟩, ⟨.endSession, endSessionOf⟩]

/-- The ATM reads words by its handlers. -/
theorem ofWords_eq_dispatch (words : List String) : ofWords words = dispatch handlers words := by
  cases words with
  | nil => rfl
  | cons verb arguments =>
    simp only [ofWords, dispatch, handlers, List.find?_cons, Usage.verb]
    split_ifs <;> simp [*]

/-- Words that stand for a command are read as it. -/
theorem ofWords_of_spells {words : List String} {command : AtmCommand} (h : Spells words command) :
    ofWords words = .ok command := by
  cases command with
  | beginSession user =>
    obtain ⟨huser, rfl⟩ := h
    exact if_pos (Credential.isUserName_iff.2 huser)
  | withdraw amount =>
    obtain ⟨digits, hdigits, rfl⟩ := h
    simp [ofWords, withdrawOf, Amount.ofString?_eq_some_iff.2 hdigits]
  | balance =>
    obtain rfl : words = _ := h
    rfl
  | endSession =>
    obtain rfl : words = _ := h
    rfl

/-- `begin-session` is followed by a user name. -/
theorem follows_beginSession : (⟨.beginSession, beginSessionOf⟩ : Handler AtmCommand).Follows Spells := by
  intro arguments
  simp only [beginSessionOf]
  split
  · split
    · rename_i user huser
      exact Or.inr ⟨beginSession user, ⟨Credential.isUserName_iff.1 huser, rfl⟩, rfl⟩
    · exact Or.inl rfl
  · exact Or.inl rfl

/-- `withdraw` is followed by digits. -/
theorem follows_withdraw : (⟨.withdraw, withdrawOf⟩ : Handler AtmCommand).Follows Spells := by
  intro arguments
  simp only [withdrawOf]
  split
  · rename_i digits
    split
    · rename_i amount hamount
      exact Or.inr ⟨withdraw amount, ⟨digits, Amount.ofString?_eq_some_iff.1 hamount, rfl⟩, rfl⟩
    · exact Or.inl rfl
  · exact Or.inl rfl

/-- `balance` is followed by nothing. -/
theorem follows_balance : (⟨.ownBalance, balanceOf⟩ : Handler AtmCommand).Follows Spells := by
  intro arguments
  simp only [balanceOf]
  split
  · exact Or.inr ⟨balance, rfl, rfl⟩
  · exact Or.inl rfl

/-- `end-session` is followed by nothing. -/
theorem follows_endSession : (⟨.endSession, endSessionOf⟩ : Handler AtmCommand).Follows Spells := by
  intro arguments
  simp only [endSessionOf]
  split
  · exact Or.inr ⟨endSession, rfl, rfl⟩
  · exact Or.inl rfl

/-- A command is written in words that stand for it. -/
theorem spells_render {words : List String} {command : AtmCommand} (h : Spells words command) :
    Spells (Text.words command.render) command := by
  cases command with
  | beginSession user =>
    obtain ⟨huser, -⟩ := h
    rw [show (beginSession user).render = " ".intercalate ["begin-session", user] from rfl, Text.words_line
      (List.forall_mem_cons.2 ⟨by decide, List.forall_mem_singleton.2 huser.isWord⟩)]
    exact ⟨huser, rfl⟩
  | withdraw amount =>
    obtain ⟨digits, hdigits, -⟩ := h
    rw [show (withdraw amount).render = " ".intercalate ["withdraw", amount.render] from rfl, Text.words_line
      (List.forall_mem_cons.2 ⟨by decide, List.forall_mem_singleton.2 (Amount.isWord_render amount)⟩)]
    exact ⟨amount.render, Amount.ofString?_eq_some_iff.1 (Amount.ofString?_render hdigits.nonneg), rfl⟩
  | balance => exact Text.words_of_word (by decide)
  | endSession => exact Text.words_of_word (by decide)

/-- **The console of the ATM reads its grammar.** -/
theorem reads : Reads ofLine render Spells [.beginSession, .withdraw, .ownBalance, .endSession] := by
  have hofLine (line : String) : ofLine line = dispatch handlers (Text.words line) := ofWords_eq_dispatch _
  refine reads_of_handlers hofLine (by decide) ?_ (fun words command h => ?_) fun _ _ => spells_render
  · simp only [handlers, List.forall_mem_cons, List.not_mem_nil, false_implies, implies_true, and_true]
    exact ⟨follows_beginSession, follows_withdraw, follows_balance, follows_endSession⟩
  · rw [← ofWords_eq_dispatch, ofWords_of_spells h]

end AtmCommand

/-! ## At the Bank -/

namespace BankCommand

/-- The words of the lines that stand for a command. -/
def Spells (words : List String) : BankCommand → Prop
  | createUser user pin opening => Credential.UserName user ∧ Credential.Pin pin ∧
      ∃ digits, Amount.Spells digits opening ∧ words = ["create-user", user, pin, digits]
  | deposit user amount => Credential.UserName user ∧
      ∃ digits, Amount.Spells digits amount ∧ words = ["deposit", user, digits]
  | balance user => Credential.UserName user ∧ words = ["balance", user]

/-- What the Bank does with the arguments of each verb. -/
def handlers : List (Handler BankCommand) :=
  [⟨.createUser, createUserOf⟩, ⟨.deposit, depositOf⟩, ⟨.balanceOf, balanceOf⟩]

/-- The Bank reads words by its handlers. -/
theorem ofWords_eq_dispatch (words : List String) : ofWords words = dispatch handlers words := by
  cases words with
  | nil => rfl
  | cons verb arguments =>
    simp only [ofWords, dispatch, handlers, List.find?_cons, Usage.verb]
    split_ifs <;> simp [*]

/-- Words that stand for a command are read as it. -/
theorem ofWords_of_spells {words : List String} {command : BankCommand} (h : Spells words command) :
    ofWords words = .ok command := by
  cases command with
  | createUser user pin opening =>
    obtain ⟨huser, hpin, digits, hdigits, rfl⟩ := h
    simp [ofWords, createUserOf, Credential.isUserName_iff.2 huser, Credential.isPin_iff.2 hpin,
      Amount.ofString?_eq_some_iff.2 hdigits]
  | deposit user amount =>
    obtain ⟨huser, digits, hdigits, rfl⟩ := h
    simp [ofWords, depositOf, Credential.isUserName_iff.2 huser, Amount.ofString?_eq_some_iff.2 hdigits]
  | balance user =>
    obtain ⟨huser, rfl⟩ := h
    simp [ofWords, balanceOf, Credential.isUserName_iff.2 huser]

/-- `create-user` is followed by a user name, a PIN and digits. -/
theorem follows_createUser : (⟨.createUser, createUserOf⟩ : Handler BankCommand).Follows Spells := by
  intro arguments
  simp only [createUserOf]
  split
  · split
    · rename_i user pin digits hcredentials
      rw [Bool.and_eq_true] at hcredentials
      split
      · rename_i opening hopening
        exact Or.inr ⟨createUser user pin opening, ⟨Credential.isUserName_iff.1 hcredentials.1,
          Credential.isPin_iff.1 hcredentials.2, digits, Amount.ofString?_eq_some_iff.1 hopening, rfl⟩, rfl⟩
      · exact Or.inl rfl
    · exact Or.inl rfl
  · exact Or.inl rfl

/-- `deposit` is followed by a user name and digits. -/
theorem follows_deposit : (⟨.deposit, depositOf⟩ : Handler BankCommand).Follows Spells := by
  intro arguments
  simp only [depositOf]
  split
  · split
    · rename_i user digits huser
      split
      · rename_i amount hamount
        exact Or.inr ⟨deposit user amount,
          ⟨Credential.isUserName_iff.1 huser, digits, Amount.ofString?_eq_some_iff.1 hamount, rfl⟩, rfl⟩
      · exact Or.inl rfl
    · exact Or.inl rfl
  · exact Or.inl rfl

/-- `balance` is followed by a user name. -/
theorem follows_balance : (⟨.balanceOf, balanceOf⟩ : Handler BankCommand).Follows Spells := by
  intro arguments
  simp only [balanceOf]
  split
  · split
    · rename_i user huser
      exact Or.inr ⟨balance user, ⟨Credential.isUserName_iff.1 huser, rfl⟩, rfl⟩
    · exact Or.inl rfl
  · exact Or.inl rfl

/-- A command is written in words that stand for it. -/
theorem spells_render {words : List String} {command : BankCommand} (h : Spells words command) :
    Spells (Text.words command.render) command := by
  have hread {amount : Amount} {digits : String} (hdigits : Amount.Spells digits amount) :
      Amount.Spells amount.render amount :=
    Amount.ofString?_eq_some_iff.1 (Amount.ofString?_render hdigits.nonneg)
  cases command with
  | createUser user pin opening =>
    obtain ⟨huser, hpin, digits, hdigits, -⟩ := h
    rw [show (createUser user pin opening).render = " ".intercalate ["create-user", user, pin, opening.render]
      from rfl, Text.words_line (List.forall_mem_cons.2 ⟨by decide, List.forall_mem_cons.2 ⟨huser.isWord,
        List.forall_mem_cons.2 ⟨hpin.isWord, List.forall_mem_singleton.2 (Amount.isWord_render opening)⟩⟩⟩)]
    exact ⟨huser, hpin, opening.render, hread hdigits, rfl⟩
  | deposit user amount =>
    obtain ⟨huser, digits, hdigits, -⟩ := h
    rw [show (deposit user amount).render = " ".intercalate ["deposit", user, amount.render] from rfl,
      Text.words_line (List.forall_mem_cons.2 ⟨by decide, List.forall_mem_cons.2 ⟨huser.isWord,
        List.forall_mem_singleton.2 (Amount.isWord_render amount)⟩⟩)]
    exact ⟨huser, amount.render, hread hdigits, rfl⟩
  | balance user =>
    obtain ⟨huser, -⟩ := h
    rw [show (balance user).render = " ".intercalate ["balance", user] from rfl, Text.words_line
      (List.forall_mem_cons.2 ⟨by decide, List.forall_mem_singleton.2 huser.isWord⟩)]
    exact ⟨huser, rfl⟩

/-- **The console of the Bank reads its grammar.** -/
theorem reads : Reads ofLine render Spells [.createUser, .deposit, .balanceOf] := by
  have hofLine (line : String) : ofLine line = dispatch handlers (Text.words line) := ofWords_eq_dispatch _
  refine reads_of_handlers hofLine (by decide) ?_ (fun words command h => ?_) fun _ _ => spells_render
  · simp only [handlers, List.forall_mem_cons, List.not_mem_nil, false_implies, implies_true, and_true]
    exact ⟨follows_createUser, follows_deposit, follows_balance⟩
  · rw [← ofWords_eq_dispatch, ofWords_of_spells h]

end BankCommand

/-! ## Both consoles -/

/-- **The consoles accept exactly their grammars.**  Blanks cut any line into words in one way, and of a line
nothing but its words counts. A line with the words `begin-session u`, `withdraw n`, `balance` or `end-session`
is that command at the ATM, one with the words `create-user u p n`, `deposit u n` or `balance u` at the Bank,
where `u` is 1 to 250 ASCII letters, `p` four ASCII digits and `n` any number of them with a value of at most
`2^31 - 1`. A line without a word is blank, another one gets the usage line of its verb, and where the first word
is no verb of the console the line is invalid. A command that was read is read again from the line it is written
as. -/
theorem lines_follow_grammar :
    (∀ line : String, ∃! words, Text.Spaced line.toList words) ∧
    Reads AtmCommand.ofLine AtmCommand.render AtmCommand.Spells
      [.beginSession, .withdraw, .ownBalance, .endSession] ∧
    Reads BankCommand.ofLine BankCommand.render BankCommand.Spells [.createUser, .deposit, .balanceOf] ∧
    (∀ digits : String, (∃ amount, Amount.Spells digits amount) ↔
      digits.toList ≠ [] ∧ (∀ c ∈ digits.toList, '0' ≤ c ∧ c ≤ '9') ∧
        Nat.ofDigitChars 10 digits.toList 0 ≤ 2147483647) ∧
    ∀ usage : Usage, (Rejection.usage usage).message = some usage.line ∧
      ("Usage: " ++ usage.verb).toList <+: usage.line.toList := by
  refine ⟨fun line => ⟨Text.words line, Text.spaced_iff.2 rfl, fun words h => (Text.spaced_iff.1 h).symm⟩,
    AtmCommand.reads, BankCommand.reads, fun _ => Amount.exists_spells_iff,
    fun usage => ⟨rfl, usage.verb_prefix_line⟩⟩

/-- Wide blanks and leading zeros are accepted, and a sign is not. The command is written without them. -/
theorem lines_follow_grammar_zeros :
    AtmCommand.ofLine "\u2003withdraw\u00a0007\n" = .ok (.withdraw 7) ∧
      AtmCommand.ofLine "withdraw 7" = .ok (.withdraw 7) ∧
      AtmCommand.ofLine "withdraw -7" = .error (.usage .withdraw) := by
  obtain ⟨-, hatm, -, -, -⟩ := lines_follow_grammar
  have hzeros := hatm.judged "\u2003withdraw\u00a0007\n" ["withdraw", "007"] (Text.spaced_iff.2 (by decide))
  have hsign := hatm.judged "withdraw -7" ["withdraw", "-7"] (Text.spaced_iff.2 (by decide))
  have hread := (hzeros.ok_iff (.withdraw 7)).2 ⟨"007", Amount.ofString?_eq_some_iff.1 (by rfl), rfl⟩
  refine ⟨hread, hatm.ofLine_render _ _ hread, (hsign.usage_iff _).2 ⟨by decide, rfl, ?_⟩⟩
  rintro (user | amount | - | -) h
  · exact absurd h.2 (by simp)
  · obtain ⟨digits, hdigits, hwords⟩ := h
    obtain rfl : "-7" = digits := by simpa using hwords
    exact absurd (hdigits.digits '-' (by decide)) (by decide)
  · exact absurd h (by simp [AtmCommand.Spells])
  · exact absurd h (by simp [AtmCommand.Spells])

end Console
end Cashpoint
