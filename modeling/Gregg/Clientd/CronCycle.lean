import Gregg.Clientd.CronTable

/-!
# Installing and uninstalling in turn

The table that calls leave behind, when no crontab was there at first: none, one block, or the
line feed that a removal writes in place of the block. The last is not taken for an absent table.
-/

namespace Gregg.Clientd

inductive CronCall where
  | install
  | uninstall
  deriving DecidableEq

/-- What `crontab -l` reports after a call, where an absent table reads as the empty text. -/
def CronCall.next (target : StartupTarget) (table : List Char) : CronCall → List Char
  | .install =>
      match installCron target table with
      | .ok written => written
      | .error _ => table
  | .uninstall => (uninstallCron target table).2.getD table

/-- The table after some calls, the first of which found no crontab. -/
def tableAfter (target : StartupTarget) (calls : List CronCall) : List Char :=
  calls.foldl (CronCall.next target) []

namespace StartupTarget

variable (target : StartupTarget)

/-- The target's marker and command are in the table once, in this order. -/
def HoldsOneBlock (table : List Char) : Prop :=
  ∃ before after, Lines.split table =
      before ++ [target.markerLine, target.commandLine] ++ after ∧
    ∀ line ∈ before ++ after, target.isOwn line = false

def HoldsNoBlock (table : List Char) : Prop :=
  ∀ line ∈ Lines.split table, target.isOwn line = false

/-- What one call has to do after the calls before it. -/
def CallHolds (before : List CronCall) (call : CronCall) : Prop :=
  let table := tableAfter target before
  let next := call.next target table
  (call = .install →
    (∃ written, installCron target table = .ok written) ∧ target.HoldsOneBlock next) ∧
  (call = .uninstall →
    (before.getLast? = some .install → (uninstallCron target table).1 = .removeOwned) ∧
      target.HoldsNoBlock next) ∧
  (before.getLast? = some call → next = table)

/-- Every one of the calls does what it has to. -/
def Repeatable (calls : List CronCall) : Prop :=
  ∀ before call after, calls = before ++ call :: after → target.CallHolds before call

/-- The paths are text of one line. -/
def SingleLine : Prop :=
  '\n' ∉ target.executable.toStringLossy ∧ '\n' ∉ target.config.toStringLossy

end StartupTarget

section Block

variable {target : StartupTarget}

theorem feed_mem_shellQuote_iff (value : List Char) : '\n' ∈ shellQuote value ↔ '\n' ∈ value := by
  rw [shellQuote]
  split
  · rfl
  · rw [Search.replace_singleton, List.mem_append, List.mem_cons, List.mem_singleton,
      List.mem_flatMap]
    constructor
    · rintro ((isQuote | ⟨character, isIn, isPart⟩) | isQuote)
      · cases isQuote
      · split at isPart
        · exact absurd isPart (by decide)
        · rwa [List.mem_singleton.mp isPart]
      · cases isQuote
    · intro isIn
      exact .inl (.inr ⟨'\n', isIn, by decide⟩)

theorem feed_mem_commandLine_iff : '\n' ∈ target.commandLine ↔ ¬target.SingleLine := by
  have around : ∀ start executable flag config run ending : List Char, '\n' ∉ start →
      '\n' ∉ flag → '\n' ∉ run → '\n' ∉ ending →
      ('\n' ∈ start ++ ((executable ++ (flag ++ (config ++ run))) ++ ending) ↔
        ¬('\n' ∉ executable ∧ '\n' ∉ config)) := by
    intro start executable flag config run ending noStart noFlag noRun noEnding
    simp only [List.mem_append, noStart, noFlag, noRun, noEnding]
    tauto
  rw [StartupTarget.SingleLine, ← feed_mem_shellQuote_iff target.executable.toStringLossy,
    ← feed_mem_shellQuote_iff target.config.toStringLossy]
  exact around _ _ _ _ _ _ (by decide) (by decide) (by decide) (by decide)

theorem split_block (single : target.SingleLine) :
    Lines.split (renderCronWatchdog target) = [target.markerLine, target.commandLine] := by
  have command : '\n' ∉ target.commandLine := fun isIn => feed_mem_commandLine_iff.mp isIn single
  have lines : ∀ line ∈ [target.markerLine, target.commandLine], '\n' ∉ line := by
    rw [List.forall_mem_cons, List.forall_mem_singleton]
    exact ⟨single_markerLine, command⟩
  have tight : Lines.stripReturn target.commandLine = target.commandLine := by
    rw [Lines.stripReturn, getLast?_commandLine, if_neg (by decide)]
  have split := Lines.split_join lines []
  rw [List.append_nil, List.map_cons, List.map_singleton, stripReturn_markerLine, tight] at split
  exact split

theorem outsideBlocks_block :
    target.outsideBlocks false [target.markerLine, target.commandLine] = [] := by
  rw [StartupTarget.outsideBlocks, if_pos (by simp)]
  rfl

/-- Installing replaces a block by the same one. -/
theorem mergeCronBlock_block (single : target.SingleLine) :
    mergeCronBlock (renderCronWatchdog target) (renderCronWatchdog target) =
      renderCronWatchdog target := by
  rw [mergeCronBlock_eq, split_block single, outsideBlocks_block]
  rfl

theorem mergeCronBlock_nil (target : StartupTarget) :
    mergeCronBlock [] (renderCronWatchdog target) = renderCronWatchdog target := by
  rw [mergeCronBlock_eq]
  rfl

theorem removeCronBlock_block (single : target.SingleLine) :
    removeCronBlock (renderCronWatchdog target) target.identity = (['\n'], true) := by
  have stripped : stripBlock target.markerLine false [target.markerLine, target.commandLine] =
      ([], true) := by
    rw [stripBlock, if_pos (by simp)]
    rfl
  rw [removeCronBlock, split_block single, ← StartupTarget.markerLine, stripped]
  rfl

theorem cronBlockOwnership_block (single : target.SingleLine) :
    cronBlockOwnership (renderCronWatchdog target) target.executable target.config = .owned := by
  refine cronBlockOwnership_eq_owned_iff.mpr ⟨?_, ?_⟩
  · rw [renderCronWatchdog, Lines.join_cons]
    simp
  · rw [split_block single, List.any_cons, List.any_cons, Bool.or_eq_true, Bool.or_eq_true]
    exact .inr (.inl (Search.isSome_splitOnce _ _ _))

/-- What a removal leaves is not taken for an absent table. -/
theorem cronBlockOwnership_feed (executable config : OsPath) :
    cronBlockOwnership ['\n'] executable config = .unknown := by
  have lines : Lines.split ['\n'] = [[]] := rfl
  have notMarker : CRON_MARKER.isPrefixOf [] = false := by decide
  have notWanted : containsText (daemonCommand executable config) [] = false := by
    have nonempty : daemonCommand executable config ≠ [] :=
      List.append_ne_nil_of_right_ne_nil _ (List.append_ne_nil_of_left_ne_nil (by decide) _)
    rw [containsText, Search.splitOnce, if_neg nonempty]
    rfl
  rw [cronBlockOwnership, lines]
  dsimp only
  rw [List.any_cons, List.any_cons, notMarker, notWanted]
  rfl

theorem installCron_nil (target : StartupTarget) :
    installCron target [] = .ok (renderCronWatchdog target) := by
  rw [installCron, cronBlockOwnership_eq_absent_iff.mpr rfl, mergeCronBlock_nil]

theorem installCron_block (single : target.SingleLine) :
    installCron target (renderCronWatchdog target) = .ok (renderCronWatchdog target) := by
  rw [installCron, cronBlockOwnership_block single, mergeCronBlock_block single]

theorem installCron_feed (target : StartupTarget) (written : List Char) :
    installCron target ['\n'] ≠ .ok written := by
  rw [installCron, cronBlockOwnership_feed]
  exact nofun

theorem uninstallCron_nil (target : StartupTarget) :
    uninstallCron target [] = (.alreadyAbsent, none) := by
  rw [uninstallCron, inspectCron, cronBlockOwnership_eq_absent_iff.mpr rfl]
  rfl

theorem uninstallCron_block (single : target.SingleLine) :
    uninstallCron target (renderCronWatchdog target) = (.removeOwned, some ['\n']) := by
  rw [uninstallCron, inspectCron, cronBlockOwnership_block single, removeCronBlock_block single]
  rfl

theorem uninstallCron_feed (target : StartupTarget) :
    uninstallCron target ['\n'] = (.preservedForeign, none) := by
  rw [uninstallCron, inspectCron, cronBlockOwnership_feed]
  rfl

end Block

section Sequences

variable {target : StartupTarget} {calls : List CronCall}

/-- Where calls lead that never install again after a removal. -/
inductive CronStage (target : StartupTarget) (calls : List CronCall) : Prop where
  | absent (never : .install ∉ calls) (table : tableAfter target calls = [])
  | installed (last : calls.getLast? = some .install)
      (noRemoval : ¬[.install, .uninstall].Sublist calls)
      (table : tableAfter target calls = renderCronWatchdog target)
  | removed (last : calls.getLast? = some .uninstall)
      (removal : [.install, .uninstall].Sublist calls) (table : tableAfter target calls = ['\n'])

theorem tableAfter_concat (calls : List CronCall) (call : CronCall) :
    tableAfter target (calls ++ [call]) = call.next target (tableAfter target calls) := by
  rw [tableAfter, List.foldl_append]
  rfl

theorem sublist_concat_iff (part : List CronCall) {last call : CronCall} :
    (part ++ [last]).Sublist (calls ++ [call]) ↔
      (part ++ [last]).Sublist calls ∨ last = call ∧ part.Sublist calls := by
  rw [← List.reverse_sublist, List.reverse_append, List.reverse_append, List.reverse_singleton,
    List.reverse_singleton, List.singleton_append, List.singleton_append, List.cons_sublist_cons',
    ← List.reverse_concat, List.reverse_sublist, List.reverse_sublist]

theorem removal_concat_iff {call : CronCall} :
    [.install, .uninstall].Sublist (calls ++ [call]) ↔
      [.install, .uninstall].Sublist calls ∨ .uninstall = call ∧ .install ∈ calls := by
  rw [← List.singleton_sublist]
  exact sublist_concat_iff [.install]

theorem reinstall_concat_iff {call : CronCall} :
    [.install, .uninstall, .install].Sublist (calls ++ [call]) ↔
      [.install, .uninstall, .install].Sublist calls ∨
        .install = call ∧ [.install, .uninstall].Sublist calls :=
  sublist_concat_iff [.install, .uninstall]

theorem holdsOneBlock_block_iff :
    target.HoldsOneBlock (renderCronWatchdog target) ↔ target.SingleLine := by
  constructor
  · rintro ⟨before, after, lines, -⟩
    have isLine : target.commandLine ∈ Lines.split (renderCronWatchdog target) := by
      rw [lines]
      simp
    exact not_not.mp (mt feed_mem_commandLine_iff.mpr (Lines.single_of_mem_split isLine))
  · intro single
    exact ⟨[], [], split_block single, by simp⟩

theorem holdsNoBlock_feed (target : StartupTarget) : target.HoldsNoBlock ['\n'] := by
  intro line isLine
  have lines : Lines.split ['\n'] = [[]] := rfl
  rw [lines, List.mem_singleton] at isLine
  have notMarker : ¬target.markerLine = [] := List.append_ne_nil_of_left_ne_nil (by decide) _
  have notCommand : ¬target.commandLine = [] := List.append_ne_nil_of_left_ne_nil (by decide) _
  rw [isLine, StartupTarget.isOwn]
  simp [notMarker, notCommand]

theorem stage_of_noReinstall (single : .install ∈ calls → target.SingleLine)
    (noReinstall : ¬[.install, .uninstall, .install].Sublist calls) : CronStage target calls := by
  induction calls using List.reverseRecOn with
  | nil => exact .absent (by simp) rfl
  | append_singleton calls call ih =>
      rw [reinstall_concat_iff, not_or, not_and] at noReinstall
      have last : (calls ++ [call]).getLast? = some call := List.getLast?_concat
      rcases ih (fun installs => single (List.mem_append_left _ installs)) noReinstall.1 with
        ⟨never, table⟩ | ⟨lastInstall, noRemoval, table⟩ | ⟨lastRemoval, removal, table⟩
      · cases call with
        | install =>
            refine .installed last ?_ ?_
            · rw [removal_concat_iff, not_or]
              exact ⟨fun removal => never (removal.subset List.mem_cons_self), by simp⟩
            · rw [tableAfter_concat, table, CronCall.next, installCron_nil]
        | uninstall =>
            refine .absent (by simp [never]) ?_
            rw [tableAfter_concat, table, CronCall.next, uninstallCron_nil]
            rfl
      · have installs : .install ∈ calls := List.mem_of_getLast? lastInstall
        have isSingle := single (List.mem_append_left _ installs)
        cases call with
        | install =>
            refine .installed last ?_ ?_
            · rw [removal_concat_iff, not_or]
              exact ⟨noRemoval, by simp⟩
            · rw [tableAfter_concat, table, CronCall.next, installCron_block isSingle]
        | uninstall =>
            refine .removed last (removal_concat_iff.mpr (.inr ⟨rfl, installs⟩)) ?_
            rw [tableAfter_concat, table, CronCall.next, uninstallCron_block isSingle]
            rfl
      · cases call with
        | install => exact absurd removal (noReinstall.2 rfl)
        | uninstall =>
            refine .removed last (removal_concat_iff.mpr (.inl removal)) ?_
            rw [tableAfter_concat, table, CronCall.next, uninstallCron_feed]
            rfl

/-- A call does what it has to, except for an install after a removal or of a command of more
than one line. -/
theorem callHolds_iff (single : .install ∈ calls → target.SingleLine)
    (stage : CronStage target calls) (call : CronCall) : target.CallHolds calls call ↔
      (call = .install → target.SingleLine ∧ ¬[.install, .uninstall].Sublist calls) := by
  rw [StartupTarget.CallHolds]
  rcases stage with
    ⟨never, table⟩ | ⟨lastInstall, noRemoval, table⟩ | ⟨lastRemoval, removal, table⟩
  · have notLast : calls.getLast? ≠ some .install := fun last => never (List.mem_of_getLast? last)
    have noRemoval : ¬[.install, .uninstall].Sublist calls := fun removal =>
      never (removal.subset List.mem_cons_self)
    rw [table]
    cases call with
    | install =>
        rw [CronCall.next, installCron_nil]
        simp [notLast, noRemoval, holdsOneBlock_block_iff]
    | uninstall =>
        have noLines : target.HoldsNoBlock [] := nofun
        rw [CronCall.next, uninstallCron_nil]
        simp [notLast, noLines]
  · have isSingle := single (List.mem_of_getLast? lastInstall)
    rw [table, lastInstall]
    cases call with
    | install =>
        rw [CronCall.next, installCron_block isSingle]
        simp [noRemoval, holdsOneBlock_block_iff, isSingle]
    | uninstall =>
        rw [CronCall.next, uninstallCron_block isSingle]
        simp [holdsNoBlock_feed]
  · rw [table, lastRemoval]
    cases call with
    | install => simp [installCron_feed, removal]
    | uninstall =>
        rw [CronCall.next, uninstallCron_feed]
        simp [holdsNoBlock_feed]

theorem repeatable_concat_iff {call : CronCall} : target.Repeatable (calls ++ [call]) ↔
    target.Repeatable calls ∧ target.CallHolds calls call := by
  constructor
  · intro repeatable
    refine ⟨?_, repeatable calls call [] rfl⟩
    rintro before other after rfl
    exact repeatable before other (after ++ [call]) (by simp)
  · rintro ⟨repeatable, holds⟩ before other after same
    rcases List.eq_nil_or_concat after with rfl | ⟨front, last, rfl⟩
    · rcases List.append_inj' same rfl with ⟨rfl, isCall⟩
      cases isCall
      exact holds
    · rw [List.concat_eq_append, ← List.cons_append, ← List.append_assoc] at same
      exact repeatable before other front (List.append_inj' same rfl).1

/-- Calls that start without a crontab are repeatable exactly when none of them installs after a
removal, and none installs a command of more than one line. -/
theorem StartupTarget.repeatable_iff (target : StartupTarget) (calls : List CronCall) :
    target.Repeatable calls ↔ (.install ∈ calls → target.SingleLine) ∧
      ¬[.install, .uninstall, .install].Sublist calls := by
  induction calls using List.reverseRecOn with
  | nil => simp [Repeatable]
  | append_singleton calls call ih =>
      rw [repeatable_concat_iff, ih, reinstall_concat_iff, List.mem_append, List.mem_singleton]
      constructor
      · rintro ⟨⟨single, noReinstall⟩, holds⟩
        have step := (callHolds_iff single (stage_of_noReinstall single noReinstall) call).mp holds
        constructor
        · rintro (installs | isInstall)
          · exact single installs
          · exact (step isInstall.symm).1
        · rintro (reinstall | ⟨isInstall, removal⟩)
          · exact noReinstall reinstall
          · exact (step isInstall.symm).2 removal
      · rintro ⟨single, noReinstall⟩
        rw [not_or] at noReinstall
        have before : .install ∈ calls → target.SingleLine := fun installs => single (.inl installs)
        refine ⟨⟨before, noReinstall.1⟩, ?_⟩
        refine (callHolds_iff before (stage_of_noReinstall before noReinstall.1) call).mpr ?_
        rintro rfl
        exact ⟨single (.inr rfl), fun removal => noReinstall.2 ⟨rfl, removal⟩⟩

/-- After one removal, the same target cannot be installed again. -/
theorem reinstall_is_refused :
    ¬sampleTarget.Repeatable [.install, .uninstall, .install] := by
  have table : tableAfter sampleTarget [.install, .uninstall] = ['\n'] := by decide +kernel
  intro repeatable
  rcases (repeatable [.install, .uninstall] .install [] rfl).1 rfl with ⟨⟨written, accepted⟩, -⟩
  rw [table] at accepted
  exact installCron_feed sampleTarget written accepted

end Sequences

end Gregg.Clientd
