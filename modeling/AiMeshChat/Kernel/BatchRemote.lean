import AiMeshChat.Lib.Shell

/-!
# Mailbox operations in one call of ssh

`_batch_remote_mailbox` of `swarm/kernel.py` runs one mailbox subcommand for many messages: it
joins a command for each of them with `;`, has the shell of the host run the list, and takes
the exit status of the list for the success of all. The shell reads back the commands that
were meant, whatever the ids of the messages are (`lex_remoteCmd`); but the exit status of a
list is that of its last command. So what it returns is right unless the last command
succeeds and an earlier one fails (`batch_agrees_iff`).
-/

namespace AiMeshChat.Kernel

open Lib Lib.Shell

/-- How `subprocess.run` ends, with the connection before it: with an exit code, with an
exception that is caught, or with another one. -/
inductive SshEnd
  | exit (code : ℤ)
  | caught
  | raised

/-- `cmd_parts`: the words of one mailbox command. -/
def cmdParts (subcmd sessionId managerId mid : String) : List String :=
  ["aimeshchat", "mailbox", subcmd, "--session", sessionId, "--agent", managerId, "--owner",
    managerId, "--msg-id", mid]

/-- The settings before the commands. -/
def exports (mailboxRoot : String) : List String :=
  "export PATH=$HOME/.local/bin:$PATH" ::
    if mailboxRoot = "" then [] else ["export MAILBOX_ROOT=" ++ quote mailboxRoot]

/-- `remote_cmd`. -/
def remoteCmd (subcmd sessionId managerId : String) (msgIds : List String) (mailboxRoot : String) :
    String :=
  "; ".intercalate (exports mailboxRoot ++
    msgIds.map fun mid => " ".intercalate ((cmdParts subcmd sessionId managerId mid).map quote))

/-- `_batch_remote_mailbox`; `none` where it raises. -/
def batchRemoteMailbox (ssh : String → SshEnd) (subcmd sessionId managerId : String)
    (msgIds : List String) (mailboxRoot : String) : Option Bool :=
  if msgIds = [] then some true
  else match ssh (remoteCmd subcmd sessionId managerId msgIds mailboxRoot) with
    | .exit code => some (code = 0)
    | .caught => some false
    | .raised => none

/-- `batch_release_remote`: the dict that it returns. -/
def batchReleaseRemote (ssh : String → SshEnd) (sessionId managerId : String)
    (msgIds : List String) (mailboxRoot : String) : Option (List (String × Bool)) :=
  (batchRemoteMailbox ssh "release" sessionId managerId msgIds mailboxRoot).map fun ok =>
    msgIds.eraseDups.map (·, ok)

/-! ## What the shell runs -/

/-- The settings, as the shell reads them. -/
def exportCommands (mailboxRoot : String) : List Command :=
  ["export".toList.map (·, .bare), "PATH=$HOME/.local/bin:$PATH".toList.map (·, .bare)] ::
    if mailboxRoot = "" then []
    else [["export".toList.map (·, .bare),
      "MAILBOX_ROOT=".toList.map (·, .bare) ++ quoted mailboxRoot]]

/-- The mailbox commands, as the shell reads them. -/
def mailboxCommands (subcmd sessionId managerId : String) (msgIds : List String) : List Command :=
  msgIds.map fun mid => (cmdParts subcmd sessionId managerId mid).map quoted

theorem reads_exports (mailboxRoot : String) : List.Forall₂ Reads
    ((exports mailboxRoot).map String.toList) (exportCommands mailboxRoot) := by
  have hexport : IsWord "export".toList ("export".toList.map (·, .bare)) :=
    isWord_literal (by decide) (by decide)
  have hpath : IsWord "PATH=$HOME/.local/bin:$PATH".toList
      ("PATH=$HOME/.local/bin:$PATH".toList.map (·, .bare)) := isWord_literal (by decide) (by decide)
  have hroot : IsWord ("MAILBOX_ROOT=".toList ++ (quote mailboxRoot).toList)
      ("MAILBOX_ROOT=".toList.map (·, .bare) ++ quoted mailboxRoot) :=
    IsWord.append_quote (isWord_literal (by decide) (by decide)) mailboxRoot
  have htext : "export PATH=$HOME/.local/bin:$PATH".toList =
      [' '].intercalate ["export".toList, "PATH=$HOME/.local/bin:$PATH".toList] := by decide
  have htext' : ("export MAILBOX_ROOT=" ++ quote mailboxRoot).toList =
      [' '].intercalate ["export".toList, "MAILBOX_ROOT=".toList ++ (quote mailboxRoot).toList] := by
    simp [List.intercalate]
  unfold exports exportCommands
  rw [List.map_cons, htext]
  refine .cons (reads_words (.cons hexport (.cons hpath .nil))) ?_
  split
  · exact .nil
  · rw [List.map_cons, htext']
    exact .cons (reads_words (.cons hexport (.cons hroot .nil))) .nil

/-- **What the shell runs** are the settings and the commands of all the messages, with the
words that were meant. -/
theorem lex_remoteCmd (subcmd sessionId managerId : String) (msgIds : List String)
    (mailboxRoot : String) : lex (remoteCmd subcmd sessionId managerId msgIds mailboxRoot) =
      some (exportCommands mailboxRoot ++ mailboxCommands subcmd sessionId managerId msgIds) := by
  have hreads : List.Forall₂ Reads (msgIds.map fun mid => [' '].intercalate
      ((cmdParts subcmd sessionId managerId mid).map fun a => (quote a).toList))
      (mailboxCommands subcmd sessionId managerId msgIds) := by
    unfold mailboxCommands
    induction msgIds with
    | nil => exact .nil
    | cons mid msgIds ih => exact .cons (reads_quoted _ _) ih
  have hall := List.rel_append (reads_exports mailboxRoot) hreads
  have htext : remoteCmd subcmd sessionId managerId msgIds mailboxRoot = String.ofList
      ([';', ' '].intercalate ((exports mailboxRoot).map String.toList ++ msgIds.map fun mid =>
        [' '].intercalate ((cmdParts subcmd sessionId managerId mid).map fun a =>
          (quote a).toList))) := by
    rw [← String.toList_inj, remoteCmd, String.toList_intercalate, String.toList_ofList]
    simp [Function.comp_def, String.toList_intercalate]
  rw [htext]
  exact lex_joined hall

/-! ## What it returns -/

section Returns

variable {σ : Type} (exec : σ → Command → ℤ × σ) (w : σ) (subcmd sessionId managerId : String)
  (msgIds : List String) (mailboxRoot : String)

/-- `ssh` reports the exit status of the list that the shell of the host runs, which is 2 for
what the shell cannot read. -/
def remoteShell (text : String) : SshEnd := .exit ((status exec w text).getD 2)

/-- The exit statuses of the mailbox commands. -/
def mailboxStatuses : List ℤ :=
  (statuses exec w (exportCommands mailboxRoot ++
    mailboxCommands subcmd sessionId managerId msgIds)).drop (exportCommands mailboxRoot).length

theorem length_mailboxStatuses :
    (mailboxStatuses exec w subcmd sessionId managerId msgIds mailboxRoot).length =
      msgIds.length := by
  simp [mailboxStatuses, mailboxCommands]

theorem batchRemoteMailbox_eq :
    batchRemoteMailbox (remoteShell exec w) subcmd sessionId managerId msgIds mailboxRoot =
      some (decide ((mailboxStatuses exec w subcmd sessionId managerId msgIds
        mailboxRoot).getLast?.getD 0 = 0)) := by
  have hlen := length_mailboxStatuses exec w subcmd sessionId managerId msgIds mailboxRoot
  unfold batchRemoteMailbox
  split
  · next hnil =>
    subst hnil
    rw [List.length_eq_zero_iff.mp hlen]
    rfl
  · next hne =>
    have hlast : (mailboxStatuses exec w subcmd sessionId managerId msgIds mailboxRoot).getLast? =
        (statuses exec w (exportCommands mailboxRoot ++
          mailboxCommands subcmd sessionId managerId msgIds)).getLast? := by
      rw [mailboxStatuses, List.getLast?_drop, if_neg]
      have hpos := List.length_pos_of_ne_nil hne
      simp only [length_statuses, List.length_append, mailboxCommands, List.length_map]
      omega
    rw [hlast, remoteShell, status, lex_remoteCmd]
    rfl

/-- What the call returns is right about the commands. -/
def ReturnsTruth : Prop :=
  batchRemoteMailbox (remoteShell exec w) subcmd sessionId managerId msgIds mailboxRoot =
      some true ↔
    ∀ code ∈ mailboxStatuses exec w subcmd sessionId managerId msgIds mailboxRoot, code = 0

/-- The releases that succeed, by the ids of their messages. -/
def Released (mid : String) : Prop :=
  (mid, 0) ∈ msgIds.zip (mailboxStatuses exec w "release" sessionId managerId msgIds mailboxRoot)

/-- A message is said to be released only if it is. -/
def ReleasesTruth : Prop :=
  ∀ answer,
    batchReleaseRemote (remoteShell exec w) sessionId managerId msgIds mailboxRoot = some answer →
    ∀ mid, (mid, true) ∈ answer → Released exec w sessionId managerId msgIds mailboxRoot mid

/-- The last of the commands succeeds. -/
def LastSucceeds : Prop :=
  (mailboxStatuses exec w subcmd sessionId managerId msgIds mailboxRoot).getLast? = some 0

theorem returnsTruth_iff : ReturnsTruth exec w subcmd sessionId managerId msgIds mailboxRoot ↔
    ¬ (LastSucceeds exec w subcmd sessionId managerId msgIds mailboxRoot ∧
      ∃ code ∈ mailboxStatuses exec w subcmd sessionId managerId msgIds mailboxRoot,
        code ≠ 0) := by
  rw [ReturnsTruth, batchRemoteMailbox_eq, LastSucceeds]
  generalize mailboxStatuses exec w subcmd sessionId managerId msgIds mailboxRoot = codes
  cases hlast : codes.getLast? with
  | none =>
    rw [List.getLast?_eq_none_iff] at hlast
    subst hlast
    simp
  | some code =>
    have hmem : code ∈ codes := List.mem_of_getLast? hlast
    simp only [Option.getD_some, Option.some.injEq, decide_eq_true_eq, not_and, not_exists]
    constructor
    · intro h hcode code' hcode'
      exact not_not.mpr (h.mp hcode code' hcode')
    · intro h
      refine ⟨fun hcode code' hcode' => not_not.mp (h hcode code' hcode'), fun hall => ?_⟩
      exact hall code hmem

theorem releasesTruth_iff : ReleasesTruth exec w sessionId managerId msgIds mailboxRoot ↔
    ¬ (LastSucceeds exec w "release" sessionId managerId msgIds mailboxRoot ∧
      ∃ mid ∈ msgIds, ¬ Released exec w sessionId managerId msgIds mailboxRoot mid) := by
  have hlen := length_mailboxStatuses exec w "release" sessionId managerId msgIds mailboxRoot
  unfold ReleasesTruth batchReleaseRemote LastSucceeds
  rw [batchRemoteMailbox_eq]
  simp only [Option.map_some, Option.some.injEq, forall_eq', List.mem_map, Prod.mk.injEq,
    List.mem_eraseDups, decide_eq_true_eq, not_and, not_exists, not_not]
  cases hlast : (mailboxStatuses exec w "release" sessionId managerId msgIds
      mailboxRoot).getLast? with
  | none =>
    rw [List.getLast?_eq_none_iff] at hlast
    rw [hlast, List.length_nil] at hlen
    have hnil : msgIds = [] := List.length_eq_zero_iff.mp hlen.symm
    simp [hnil]
  | some code =>
    simp only [Option.getD_some, Option.some.injEq]
    constructor
    · intro h hcode mid hmid
      exact h mid ⟨mid, hmid, rfl, hcode⟩
    · rintro h mid ⟨mid', hmid', rfl, hcode⟩
      exact h hcode mid' hmid'

/-- **When batches agree with their commands**: unless the last command succeeds and an earlier
one fails, and unless the last release succeeds and another message is not released. -/
theorem batch_agrees_iff : (ReturnsTruth exec w subcmd sessionId managerId msgIds mailboxRoot ∧
      ReleasesTruth exec w sessionId managerId msgIds mailboxRoot) ↔
    ¬ (LastSucceeds exec w subcmd sessionId managerId msgIds mailboxRoot ∧
        ∃ code ∈ mailboxStatuses exec w subcmd sessionId managerId msgIds mailboxRoot, code ≠ 0) ∧
      ¬ (LastSucceeds exec w "release" sessionId managerId msgIds mailboxRoot ∧
        ∃ mid ∈ msgIds, ¬ Released exec w sessionId managerId msgIds mailboxRoot mid) :=
  and_congr (returnsTruth_iff exec w subcmd sessionId managerId msgIds mailboxRoot)
    (releasesTruth_iff exec w sessionId managerId msgIds mailboxRoot)

end Returns

/-! ### One of two releases -/

/-- Settings succeed, and each other command has the next of the exit statuses. -/
def nextStatus (codes : List ℤ) (cmd : Command) : ℤ × List ℤ :=
  if cmd.head?.map (·.map Prod.fst) = some "export".toList then (0, codes)
  else (codes.headD 0, codes.tail)

/-- The first release fails and the second succeeds: both are said to have succeeded. -/
theorem lost_release : ¬ ReturnsTruth nextStatus [1, 0] "release" "s" "m" ["a", "b"] "" ∧
    ¬ ReleasesTruth nextStatus [1, 0] "s" "m" ["a", "b"] "" := by
  have hcodes : mailboxStatuses nextStatus [1, 0] "release" "s" "m" ["a", "b"] "" = [1, 0] := by
    decide
  have hreturns : batchRemoteMailbox (remoteShell nextStatus [1, 0]) "release" "s" "m" ["a", "b"] "" =
      some true := by
    rw [batchRemoteMailbox_eq, hcodes]
    rfl
  refine ⟨fun h => ?_, fun h => ?_⟩
  · have hall := h.mp hreturns
    rw [hcodes] at hall
    exact absurd (hall 1 List.mem_cons_self) (by decide)
  · have hreleased := h [("a", true), ("b", true)] (by rw [batchReleaseRemote, hreturns]; rfl) "a"
      List.mem_cons_self
    rw [Released, hcodes] at hreleased
    revert hreleased
    decide

end AiMeshChat.Kernel
