import StackCalc.Proofs.Lookahead.Simulation

/-!
# Nothing of the text is lost

Whatever is asked of a reader, in whatever order, its text comes out in order and in one piece: what
the commands have taken out so far, what the buffer holds and what no one has looked at make up the
text, and the offset counts what was taken out (`Accounts`). One command keeps the account
(`Accounts.run`), and so does a sequence of them (`Accounts.after`). What a command takes out is
what its reply hands out, except for the two commands that drop what they pass.
-/

namespace StackCalc.Lookahead

/-- What was taken out of a text and what the reader still has of it are the text. -/
structure Accounts (text taken : List Char) (s : Lookahead) : Prop where
  /-- The cursor is before the buffer, on one of its characters or directly behind it. -/
  position_bounds : -1 ≤ s.position ∧ s.position ≤ s.buffer.length
  /-- Nothing is missing, nothing is there twice, and all is in order. -/
  text_eq : taken ++ (s.buffer ++ s.pending) = text
  /-- The offset counts the characters that were taken out. -/
  offset_eq : s.offset = taken.length

/-- The characters that a reply hands out. -/
def Reply.handedOut : Reply → List Char
  | .chars cs => cs
  | .text taken => taken.toList
  | .number (some taken) => taken.toList
  | _ => []

namespace Command

/-- Whether the command drops what it takes out. -/
def drops : Command → Bool
  | skipBlanks => true
  | readOperator => true
  | _ => false

/-- The reader after a sequence of commands. -/
def after (s : Lookahead) : List Command → Lookahead
  | [] => s
  | command :: rest => after (command.run s).2 rest

/-- The characters that a sequence of commands takes out of the text. -/
def takenAll (s : Lookahead) : List Command → List Char
  | [] => []
  | command :: rest => command.taken s ++ takenAll (command.run s).2 rest

variable {s : Lookahead} {command : Command}

theorem after_append (s : Lookahead) (xs ys : List Command) :
    after s (xs ++ ys) = after (after s xs) ys := by
  induction xs generalizing s with
  | nil => rfl
  | cons command xs ih => exact ih (command.run s).2

theorem takenAll_append (s : Lookahead) (xs ys : List Command) :
    takenAll s (xs ++ ys) = takenAll s xs ++ takenAll (after s xs) ys := by
  induction xs generalizing s with
  | nil => rfl
  | cons command xs ih =>
    rw [List.cons_append, takenAll, takenAll, after, ih, List.append_assoc]

theorem length_runAll (s : Lookahead) (commands : List Command) :
    (runAll s commands).length = commands.length := by
  induction commands generalizing s with
  | nil => rfl
  | cons command commands ih => rw [runAll, List.length_cons, ih, List.length_cons]

/-- Each command of a sequence is carried out by the reader that those before it leave. -/
theorem getElem?_runAll (s : Lookahead) (commands : List Command) (i : Nat) :
    (runAll s commands)[i]? =
      commands[i]?.map fun command => command.run (after s (commands.take i)) := by
  induction commands generalizing s i with
  | nil => rfl
  | cons command commands ih =>
    cases i with
    | zero => rfl
    | succ i => exact ih (command.run s).2 i

theorem after_take_succ {commands : List Command} {i : Nat} (h : commands[i]? = some command) :
    after s (commands.take (i + 1)) = (command.run (after s (commands.take i))).2 := by
  rw [List.take_add_one, h, Option.toList_some, after_append, after, after]

theorem takenAll_take_succ {commands : List Command} {i : Nat} (h : commands[i]? = some command) :
    takenAll s (commands.take (i + 1)) =
      takenAll s (commands.take i) ++ command.taken (after s (commands.take i)) := by
  rw [List.take_add_one, h, Option.toList_some, takenAll_append, takenAll, takenAll,
    List.append_nil]

theorem length_takenAll_take_le (s : Lookahead) (commands : List Command) {i j : Nat}
    (h : i ≤ j) :
    (takenAll s (commands.take i)).length ≤ (takenAll s (commands.take j)).length := by
  obtain ⟨n, rfl⟩ := Nat.exists_eq_add_of_le h
  rw [List.take_add, takenAll_append, List.length_append]
  exact Nat.le_add_right _ _

/-- What is not dropped is handed out. -/
theorem taken_eq_handedOut (s : Lookahead) (h : command.drops = false) :
    command.taken s = (command.run s).1.handedOut := by
  cases command with
  | consume => rfl
  | consumeString => exact String.toList_ofList.symm
  | readNumber => cases hnumber : s.readNumber.1 <;> simp [taken, run, Reply.handedOut, hnumber]
  | skipBlanks => simp [drops] at h
  | readOperator => simp [drops] at h
  | next => rfl
  | current => rfl
  | offset => rfl
  | position => rfl
  | setPosition p => rfl
  | accept c => rfl
  | acceptOneOf set => rfl
  | skipManyOf set => rfl

/-- No command leaves the cursor beyond the place directly behind the buffer. -/
theorem cursor_run_le (hs : s.cursor ≤ s.buffer.length + 1) (command : Command) :
    (command.run s).2.cursor ≤ (command.run s).2.buffer.length + 1 := by
  cases command with
  | next => exact (atCursor_next s).inBuffer
  | setPosition p =>
    simp only [run, Lookahead.setPosition]
    split
    next hbounds =>
      show (p + 1).toNat ≤ s.buffer.length + 1
      omega
    next => exact hs
  | consume => exact Nat.zero_le _
  | consumeString => exact Nat.zero_le _
  | skipBlanks => exact (skipBlanks_agrees hs).2.inBuffer
  | readNumber => exact (readNumber_agrees hs).2.inBuffer
  | readOperator => exact (readOperator_agrees hs).2.inBuffer
  | accept c => exact (acceptIf_agrees hs _).2.inBuffer
  | acceptOneOf set => exact (acceptIf_agrees hs _).2.inBuffer
  | skipManyOf set => exact (skipWhile_agrees hs _).2.inBuffer
  | current => exact hs
  | offset => exact hs
  | position => exact hs

end Command

namespace Accounts

variable {text taken : List Char} {s : Lookahead}

theorem ofList (text : List Char) : Accounts text [] (Lookahead.ofList text) :=
  ⟨by simp [position, Lookahead.ofList], rfl, rfl⟩

/-- One command keeps the account. -/
theorem run (h : Accounts text taken s) (command : Command) :
    Accounts text (taken ++ command.taken s) (command.run s).2 where
  position_bounds := by
    have hbounds := h.position_bounds
    simp only [position] at hbounds ⊢
    have hcursor := Command.cursor_run_le (s := s) (by omega) command
    omega
  text_eq := by
    rw [List.append_assoc]
    exact (congrArg (taken ++ ·) (command.taken_append_remaining_run s)).trans h.text_eq
  offset_eq := by
    rw [command.offset_run s, h.offset_eq, List.length_append]

/-- A sequence of commands keeps the account, by induction on the sequence. -/
theorem after (h : Accounts text taken s) (commands : List Command) :
    Accounts text (taken ++ Command.takenAll s commands) (Command.after s commands) := by
  induction commands generalizing taken s with
  | nil =>
    rw [Command.takenAll, List.append_nil]
    exact h
  | cons command commands ih =>
    rw [Command.takenAll, ← List.append_assoc]
    exact ih (h.run command)

end Accounts

theorem cursor_after_ofList_le (text : List Char) (commands : List Command) :
    (Command.after (ofList text) commands).cursor ≤
      (Command.after (ofList text) commands).buffer.length + 1 := by
  have hbounds := ((Accounts.ofList text).after commands).position_bounds
  simp only [position] at hbounds
  omega

/-- What is still to be handed out is the text from the offset on. -/
theorem remaining_after_ofList (text : List Char) (commands : List Command) :
    (Command.after (ofList text) commands).remaining =
      text.drop (Command.after (ofList text) commands).offset := by
  have haccounts := (Accounts.ofList text).after commands
  rw [haccounts.offset_eq]
  exact List.drop_left.symm.trans (congrArg (List.drop _) haccounts.text_eq)

/-- Every command of a sequence is answered. After each of them the cursor is within the buffer,
    what was taken out so far, what the buffer holds and what no one has looked at are the text, and
    the offset counts what was taken out, so it never falls. What a command takes out is what its
    reply hands out, unless it is a command that drops it. -/
theorem runAll_ofList_accounts (text : List Char) (commands : List Command) :
    (Command.runAll (ofList text) commands).length = commands.length ∧
    ∀ i command reply s, commands[i]? = some command →
      (Command.runAll (ofList text) commands)[i]? = some (reply, s) →
      Accounts text (Command.takenAll (ofList text) (commands.take (i + 1))) s ∧
      (command.drops = false →
        Command.takenAll (ofList text) (commands.take (i + 1)) =
          Command.takenAll (ofList text) (commands.take i) ++ reply.handedOut) ∧
      ∀ j reply' s', i ≤ j → (Command.runAll (ofList text) commands)[j]? = some (reply', s') →
        s.offset ≤ s'.offset := by
  have haccounts : ∀ i command reply s, commands[i]? = some command →
      (Command.runAll (ofList text) commands)[i]? = some (reply, s) →
      Accounts text (Command.takenAll (ofList text) (commands.take (i + 1))) s := by
    intro i command reply s hcommand hrun
    rw [Command.getElem?_runAll, hcommand, Option.map_some, Option.some.injEq] at hrun
    have hafter := (Accounts.ofList text).after (commands.take (i + 1))
    rw [List.nil_append, Command.after_take_succ hcommand, hrun] at hafter
    exact hafter
  refine ⟨Command.length_runAll _ _, ?_⟩
  intro i command reply s hcommand hrun
  refine ⟨haccounts i command reply s hcommand hrun, ?_, ?_⟩
  · intro hdrops
    rw [Command.getElem?_runAll, hcommand, Option.map_some, Option.some.injEq] at hrun
    rw [Command.takenAll_take_succ hcommand, Command.taken_eq_handedOut _ hdrops, hrun]
  · intro j reply' s' hij hrun'
    have hj : j < commands.length := by
      have hlength := (List.getElem?_eq_some_iff.1 hrun').1
      rwa [Command.length_runAll] at hlength
    have hlater := haccounts j commands[j] reply' s' (List.getElem?_eq_getElem hj) hrun'
    rw [(haccounts i command reply s hcommand hrun).offset_eq, hlater.offset_eq]
    exact Command.length_takenAll_take_le _ commands (Nat.succ_le_succ hij)

end StackCalc.Lookahead
