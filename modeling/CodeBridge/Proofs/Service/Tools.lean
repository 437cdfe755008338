import CodeBridge.Proofs.Service.Writing

/-!
# The calls that rewrite

Each of the tools that change files asks the server about the text that it has read, lets go of
the document, and then changes the files that the answer names as they are by then, or none.
-/

namespace CodeBridge

theorem Site.not_isLifecycle {α : Type} {s : Site} {method : String} {params : Json}
    {read : Json → Decoded α} {text : String} {fault : ClientError}
    (h : s.answered method params read text = .error fault) : fault.isLifecycle = false := by
  unfold answered at h
  cases hr : (s.answering method (some params) (some text)).outcome method with
  | error e =>
    rw [hr] at h
    obtain rfl := Except.error.inj h
    exact Response.not_isLifecycle method _ _ hr
  | ok value =>
    rw [hr] at h
    replace h : (read value).mapError (ClientError.decode method) = .error fault := h
    cases hv : read value with
    | ok a =>
      rw [hv] at h
      cases h
    | error e =>
      rw [hv] at h
      obtain rfl := Except.error.inj h
      rfl

namespace Meeting
variable {m : Meeting} {x : Side}

/-! ## questions -/

section
variable {text : String}

theorem owes_format :
    Owes (.phase (.ok text) 0 true : Assertion m x)
      (Host.onClient m.client (Client.format m.site.uri)) fun a =>
        (Assertion.fact (a = m.site.formatEdits text)).and (.phase (.ok text) 1 true) := by
  have hlook : Owes (.phase (.ok text) 0 true : Assertion m x) (Host.onClient m.client (.read id))
      fun c => (Assertion.fact (c.settings.formatting = m.site.formatting)).and
        (.phase (.ok text) 0 true) :=
    owes_client_read fun _ hs hp => ⟨hs.formatting, hp⟩
  refine hlook.client_bind fun c => owes_fact fun hc => ?_
  rw [hc]
  exact owes_ask _ _ _ (by decide) rfl

theorem owes_organizeActions :
    Owes (.phase (.ok text) 0 true : Assertion m x)
      (Host.onClient m.client
        (Client.organizeActions m.site.uri (Tool.wholeDocument text))) fun a =>
        (Assertion.fact (a = m.site.organizeActions text)).and (.phase (.ok text) 1 true) :=
  owes_ask _ _ _ (by decide) rfl

def prepared (m : Meeting) (position : Position) (text : String) : Option PrepareRename :=
  (m.site.answered "textDocument/prepareRename" (Params.atPosition m.site.uri position)
    readPrepareRename text).toOption.getD none

/-- A rename is tried whatever is said before it. -/
theorem owes_rename (position : Position) (newName : String) :
    Owes (.phase (.ok text) 0 true : Assertion m x)
      (Host.onClient m.client (Client.rename m.site.uri position newName)) fun a =>
        (Assertion.fact (a = (m.site.renameEdit text position newName).map fun edit =>
          ⟨m.prepared position text, edit⟩)).and (.phase (.ok text) 2 true) := by
  have hgo : ∀ said, Owes (.phase (.ok text) 1 true : Assertion m x)
      (Host.onClient m.client (Client.andThen (Client.request "textDocument/rename"
        (Params.rename m.site.uri position newName) readWorkspaceEdit) fun edit =>
          .done (.ok ⟨said, edit⟩))) fun a =>
        (Assertion.fact (a = (m.site.renameEdit text position newName).map fun edit =>
          (⟨said, edit⟩ : Client.RenameOutcome))).and (.phase (.ok text) 2 true) := by
    intro said
    refine (owes_ask _ _ _ (by decide) rfl).client_bind fun result => owes_fact fun hr => ?_
    cases result with
    | ok edit => exact owes_client_done fun _ _ hp => ⟨congrArg (Except.map _) hr, hp⟩
    | error fault => exact owes_client_done fun _ _ hp => ⟨congrArg (Except.map _) hr, hp⟩
  refine (owes_ask _ _ _ (by decide) rfl).client_bind fun result => owes_fact fun hr => ?_
  have hsaid : m.prepared position text = result.toOption.getD none := by
    rw [hr]
    rfl
  rw [hsaid]
  cases result with
  | ok said => exact hgo said
  | error fault =>
    dsimp only
    rw [Site.not_isLifecycle hr.symm]
    exact hgo none

end

/-! ## the end -/

section
variable {read : Except IoError String} {made : Nat}

/-- A call ends without a change, and if it has not failed there was none to make. -/
theorem owes_nothing {α : Type} {ok : α → Bool} {a : α} (h : ∀ d, m.leaves x read d = d)
    (he : ok a = true → ∀ text, read = .ok text → m.edits x text = []) :
    Owes (.phase read made false : Assertion m x) (.done a) fun a => .finished (ok a) :=
  owes_done fun _ _ hp => ⟨.inr ⟨hp.unwritten, read, hp.known, he⟩, fun hj =>
    (hp.solo hj).trans ((hp.known.alone_eq hj).trans (h m.before)).symm⟩

theorem Owes.done_after {ε ε' α β : Type} {P : Assertion m x} {r : Routine Host (Except ε α)}
    {f : Except ε α → Except ε' β} (hf : ∀ a, (f a).isOk = a.isOk)
    (h : Owes P r fun result => .finished result.isOk) :
    Owes P (r.bind fun a => .done (f a)) fun result => .finished result.isOk :=
  h.bind fun a => owes_done fun _ _ hp => by
    rw [hf]
    exact hp

end

/-! ## the tools -/

section
variable {file : Path} {read : Except IoError String}

theorem leaves_of_job {j : Job} (hj : m.jobs x = some j) (read : Except IoError String) (d : Disk) :
    m.leaves x read d = j.rewriting.leavesRead m.site read d := by
  unfold leaves
  rw [hj]

theorem batches_of_job {j : Job} (hj : m.jobs x = some j) (text : String) :
    m.batches x text = j.rewriting.batches m.site text := by
  unfold batches
  rw [hj]

theorem edits_of_batches {text : String} (h : m.batches x text = []) : m.edits x text = [] := by
  unfold edits
  rw [h]
  rfl

theorem leaves_error {fault : IoError} (d : Disk) : m.leaves x (.error fault) d = d := by
  unfold leaves
  split
  · rfl
  · rfl

/-- What is asked for is asked of the file itself. -/
theorem Leads.settled (hf : m.Leads file) : m.site.path = .ofNames m.site.names :=
  eq_ofNames_of_normalizePath hf

/-- A tool that asks about a file and goes on with the answer. -/
theorem owes_tool {α β : Type} {made : Nat} {what : String}
    {question : Tool.OpenDocument → Routine Client (Except ClientError β)}
    {answer : String → Except ClientError β} {next : Tool.OpenDocument × β → ToolRoutine α}
    (hf : m.Leads file)
    (hq : ∀ text, Owes (.phase (.ok text) 0 true : Assertion m x)
      (Host.onClient m.client (question (m.document text))) fun a =>
        (Assertion.fact (a = answer text)).and (.phase (.ok text) made true))
    (hfault : ∀ text e, answer text = .error e → ∀ d, m.leaves x (.ok text) d = d)
    (hnext : ∀ text b, answer text = .ok b → Owes (.phase (.ok text) made false : Assertion m x)
      (next (m.document text, b)) fun result => .finished result.isOk) :
    Owes (.phase read 0 false : Assertion m x) (Tool.andThen (Tool.ask file what question) next)
      fun result => .finished result.isOk := by
  refine (owes_askAbout hf what question answer hq).bind fun r => owes_any fun read => ?_
  cases read with
  | error fault =>
    refine owes_fact fun hr => ?_
    cases r with
    | ok b => cases hr
    | error e => exact owes_nothing leaves_error nofun
  | ok text =>
    refine owes_fact fun hr => ?_
    subst hr
    dsimp only
    cases ha : answer text with
    | error e => exact owes_nothing (hfault text e ha) nofun
    | ok b => exact hnext text b ha

theorem owes_mapJson {α : Type} {r : ToolRoutine α} {toJson : α → Json}
    (h : Owes (.phase read 0 false : Assertion m x) r fun result => .finished result.isOk) :
    Owes (.phase read 0 false : Assertion m x) (Tool.mapJson r toJson)
      fun result => .finished result.isOk :=
  h.done_after isOk_map

section
variable {id : Json} (hs : ∀ text, Proper m.before (m.batches x text))
include hs

theorem owes_formatCode (hj : m.jobs x = some ⟨id, .format file⟩) (hf : m.Leads file) :
    Owes (.phase read 0 false : Assertion m x) (Tool.formatCode file)
      fun result => .finished result.isOk := by
  have hleaves : ∀ text d, m.leaves x (.ok text) d = m.site.formatted text d := fun text =>
    leaves_of_job hj (.ok text)
  refine owes_tool hf (fun text => owes_format) (fun text e he d => ?_) fun text edits he => ?_
  · rw [hleaves, Site.formatted_of_error d he]
  · have hwork : ∀ d, m.leaves x (.ok text) d = (applyTextEdits d m.site.path edits).2 := by
      intro d
      rw [hleaves, Site.formatted_of_ok d he]
    have hb : m.batches x text = m.site.batch edits :=
      (batches_of_job hj text).trans (Site.formatBatches_of_ok he)
    dsimp only
    split
    next hempty =>
      refine owes_nothing (fun d => (hwork d).trans ?_) fun _ text' ht => ?_
      · unfold applyTextEdits
        rw [if_pos hempty]
      · rw [← Except.ok.inj ht]
        exact edits_of_batches (hb.trans (if_pos hempty))
    next hempty =>
      refine Owes.done_after (fun a => (isOk_map _).trans (isOk_mapError a))
        (owes_onDisk ?_ (Tool.through_changeFile _ edits m.before) (hwork m.before))
      show Owes _ (Tool.onFiles (Tool.changeFile m.site.path edits)) _
      rw [hf.settled]
      exact owes_changeFile (hj ▸ nofun) (hs text) hb

theorem owes_organizeImports (hj : m.jobs x = some ⟨id, .organize file⟩) (hf : m.Leads file) :
    Owes (.phase read 0 false : Assertion m x) (Tool.organizeImports file)
      fun result => .finished result.isOk := by
  have hleaves : ∀ text d, m.leaves x (.ok text) d = m.site.organized text d := fun text =>
    leaves_of_job hj (.ok text)
  have hbatches : ∀ text, m.batches x text = m.site.organizeBatches text := batches_of_job hj
  refine owes_tool hf (fun text => owes_organizeActions) (fun text e he d => ?_)
    fun text actions he => ?_
  · rw [hleaves, Site.organized_of_error d he]
  · cases actions with
    | nil =>
      refine owes_nothing (fun d => ?_) fun _ text' ht => ?_
      · rw [hleaves, Site.organized_of_nil d he]
      · rw [← Except.ok.inj ht]
        exact edits_of_batches ((hbatches text).trans (Site.organizeBatches_of_nil he))
    | cons action actions =>
      dsimp only
      cases hedit : action.edit with
      | some edit =>
        have hwork : ∀ d, m.leaves x (.ok text) d = (applyToTarget d m.site.path edit).2 :=
          fun d => by rw [hleaves, Site.organized_of_some d he hedit]
        have hb : m.batches x text = m.site.batch (editsFor m.site.names edit) :=
          (hbatches text).trans (Site.organizeBatches_of_some he hedit)
        refine Owes.done_after (fun a => (isOk_map _).trans (isOk_mapError a))
          (owes_onDisk ?_ (Tool.through_changeTarget _ edit m.before) (hwork m.before))
        show Owes _ (Tool.onFiles (Tool.changeTarget m.site.path edit)) _
        rw [hf.settled]
        exact owes_changeTarget (hj ▸ nofun) (hs text) hb
      | none =>
        have hnone : ∀ d, m.leaves x (.ok text) d = d := fun d => by
          rw [hleaves, Site.organized_of_none d he hedit]
        cases action.command with
        | some command => exact owes_nothing hnone nofun
        | none =>
          refine owes_nothing hnone fun _ text' ht => ?_
          rw [← Except.ok.inj ht]
          exact edits_of_batches ((hbatches text).trans (Site.organizeBatches_of_none he hedit))

theorem owes_renameAt {position : Position} {newName : String} (hj : m.jobs x ≠ none)
    (hf : m.Leads file)
    (hleaves : ∀ text d, m.leaves x (.ok text) d = m.site.renamedAt text d position newName)
    (hbatches : ∀ text, m.batches x text = m.site.renameBatchesAt text position newName) :
    Owes (.phase read 0 false : Assertion m x)
      (Tool.andThen (Tool.ask file "rename request" fun doc =>
        Client.rename doc.uri position newName) fun (_, outcome) =>
          if outcome.edit.isEmpty then .done (.ok {})
          else
            (Tool.onDisk (Tool.changeFiles outcome.edit)).bind fun files =>
              .done ((files.mapError (ToolError.notApplied "rename edits")).map Tool.Changed.mk))
      fun result => .finished result.isOk := by
  refine owes_tool hf (fun text => owes_rename position newName) (fun text e he d => ?_)
    fun text outcome he => ?_
  · cases hedit : m.site.renameEdit text position newName with
    | ok edit =>
      rw [hedit] at he
      cases he
    | error fault => rw [hleaves, Site.renamedAt_of_error d hedit]
  · cases hedit : m.site.renameEdit text position newName with
    | error fault =>
      rw [hedit] at he
      cases he
    | ok edit =>
      rw [hedit] at he
      obtain rfl := Except.ok.inj he
      have hwork : ∀ d, m.leaves x (.ok text) d =
          if edit.isEmpty then d else (applyWorkspaceEdit d edit).2 := fun d => by
        rw [hleaves, Site.renamedAt_of_ok d hedit]
      have hb : m.batches x text = (groupByFile edit.documents []).toOption.getD [] :=
        (hbatches text).trans (Site.renameBatchesAt_of_ok hedit)
      dsimp only
      split
      next hempty =>
        refine owes_nothing (fun d => (hwork d).trans (if_pos hempty)) fun _ text' ht => ?_
        have hall : ∀ entry ∈ edit.documents, entry.2 = [] := fun entry hm =>
          List.isEmpty_iff.mp (List.all_eq_true.mp hempty entry hm)
        rw [groupByFile_of_empty edit.documents hall] at hb
        rw [← Except.ok.inj ht]
        exact edits_of_batches hb
      next hempty =>
        exact Owes.done_after (fun a => (isOk_map _).trans (isOk_mapError a))
          (owes_onDisk (owes_changeFiles hj (hs text) hb) (Tool.through_changeFiles edit m.before)
            ((hwork m.before).trans (if_neg hempty)))

theorem owes_renameSymbol {line column : UInt32} {newName : String}
    (hj : m.jobs x = some ⟨id, .rename file line column newName⟩) (hf : m.Leads file) :
    Owes (.phase read 0 false : Assertion m x) (Tool.renameSymbol file line column newName)
      fun result => .finished result.isOk := by
  have hleaves : ∀ text d, m.leaves x (.ok text) d =
      m.site.renamed text d line column newName := fun text =>
    leaves_of_job hj (.ok text)
  have hbatches : ∀ text, m.batches x text = m.site.renameBatches text line column newName :=
    batches_of_job hj
  have hread : (∀ text d, m.leaves x (.ok text) d = d) → ∀ d, m.leaves x read d = d := by
    intro h d
    cases read with
    | ok text => exact h text d
    | error fault => exact leaves_error d
  unfold Tool.renameSymbol
  dsimp only
  split
  next hblank =>
    refine owes_nothing (hread fun text d => ?_) nofun
    rw [hleaves, Site.renamed_of_blank d hblank]
  next hblank =>
    unfold Tool.position
    cases hposition : toProtocol? line column with
    | none =>
      refine owes_nothing (hread fun text d => ?_) nofun
      rw [hleaves, Site.renamed_of_none d hposition]
    | some position =>
      refine owes_renameAt hs (hj ▸ nofun) hf (fun text d => ?_) fun text => ?_
      · rw [hleaves, Site.renamed_of_some d hblank hposition]
      · rw [hbatches, Site.renameBatches_of_some hblank hposition]

/-- A call of any tool that rewrites. -/
theorem owes_job {j : Job} (hj : m.jobs x = some j) (hf : m.Leads j.rewriting.file) :
    Owes (.phase read 0 false : Assertion m x) j.call
      fun reply => .finished reply.outcome.isOk := by
  obtain ⟨id, rewriting⟩ := j
  have htool : Owes (.phase read 0 false : Assertion m x) (Tool.dispatch rewriting.request)
      fun result => .finished result.isOk := by
    cases rewriting with
    | format file => exact owes_mapJson (owes_formatCode hs hj hf)
    | organize file => exact owes_mapJson (owes_organizeImports hs hj hf)
    | rename file line column newName => exact owes_mapJson (owes_renameSymbol hs hj hf)
  exact htool.bind fun result => owes_done fun _ _ hp => by
    rw [isOk_mapError]
    exact hp

end

end

end Meeting

end CodeBridge
