import CodeBridge.Proofs.Service.Document
import CodeBridge.Proofs.Text.Encoding
import CodeBridge.Proofs.Tool.Steps

/-!
# A call changes files

A call reads and stages its files one after another and then commits them, and between any two of
its steps the other call may do the same.  The fresh files of one call are not touched by the other,
so what a call has staged can be committed; but the file itself may have been replaced by then.

* `Files.stage`         the files after a change has been staged;
* `Files.after_over`    the files after a change has been made or dropped;
* `Stages`, `Commits`, `Ended`   how far a call is with what it has to change;
* `owes_stageFiles`, `owes_commitFiles`   its steps;
* `owes_changeFile`, `owes_changeTarget`, `owes_changeFiles`   all of them;
* `Owes.solo`           when nobody else is about, the steps come to what is done at once.
-/

namespace CodeBridge

namespace Meeting
variable {m : Meeting} {x : Side}

/-! ## the file -/

theorem Reached.of_text {written : List Side} {text : String} (h : m.Reached written (.ok text)) :
    ∃ text, m.textOn m.before = .ok text := by
  generalize hnow : (Except.ok text : Except IoError String) = now at h
  cases h with
  | nobody => exact ⟨text, hnow.symm⟩
  | once hb _ => exact ⟨_, hb⟩
  | twice hb _ _ _ => exact ⟨_, hb⟩

theorem Reached.text_of_mem {written : List Side} {now : Except IoError String}
    (h : m.Reached written now) (hx : x ∈ written) : ∃ text, now = .ok text := by
  cases h with
  | nobody => cases hx
  | once => exact ⟨_, rfl⟩
  | twice => exact ⟨_, rfl⟩

section
variable {written written' : List Side} {staged : Side → List Change} {d d' : Disk} {c : Change}
  {text new : String}

theorem Files.hasText (h : m.Files written staged d) (ht : m.textOn d = .ok text) :
    d.Leads m.site.path m.site.file ∧ d.HasFile m.site.file := by
  unfold textOn at ht
  rw [h.settled] at ht ⊢
  obtain ⟨-, hl, bytes, mode, hg, -⟩ :=
    Disk.readText_eq_ok (Path.plain_of_mem_resolve m.site.path) ht
  exact ⟨h.settled ▸ hl, bytes, mode, hg⟩

theorem Files.textOn_same (h : m.Files written staged d) (hd : d.KeepsDirs d')
    (hf : d'.get? m.site.file = d.get? m.site.file) (ht : m.textOn d = .ok text) :
    m.textOn d' = .ok text := by
  unfold textOn at ht ⊢
  rw [h.settled] at ht ⊢
  obtain ⟨-, hl, bytes, mode, hg, hb⟩ :=
    Disk.readText_eq_ok (Path.plain_of_mem_resolve m.site.path) ht
  exact Disk.readText_of_leads (hd.leads hl) (hf.trans hg) hb

/-- The file is not a fresh file. -/
theorem Files.spares (h : m.Files written staged d) (ht : m.textOn d = .ok text) :
    m.before.Spares m.site.file := by
  have hreached := h.reached
  rw [ht] at hreached
  obtain ⟨text, hb⟩ := hreached.of_text
  unfold textOn at hb
  rw [h.settled] at hb
  obtain ⟨-, -, bytes, mode, hg, -⟩ :=
    Disk.readText_eq_ok (Path.plain_of_mem_resolve m.site.path) hb
  exact .inl (hg ▸ nofun)

/-! ## what is staged -/

theorem apart_of {f : Side → List Change} (x : Side)
    (h : ((f x ++ f x.other).map (·.temp)).Nodup) (y : Side) :
    ((f y ++ f y.other).map (·.temp)).Nodup := by
  rcases x.eq_or_eq_other y with rfl | rfl
  · exact h
  · rw [Side.other_other, List.map_append]
    rw [List.map_append] at h
    exact List.perm_append_comm.nodup_iff.mp h

theorem Files.stage (h : m.Files written staged d) (hc : c.Fits c.file d)
    (hn : Staged.TempName c.name) (hs : m.before.Spares c.file) (ht : m.textOn d = .ok text) :
    m.Files written (Side.set staged x (staged x ++ [c])) (c.onto d) := by
  have hnew : m.before.get? c.temp = none :=
    Decidable.of_not_not fun hb => h.stays c.temp hb hc.get?_temp
  obtain ⟨hself, hothers⟩ := Change.Waits.onto hc hn hnew hs
  have hfile : m.site.file ≠ c.temp := by
    obtain ⟨-, bytes, mode, hg⟩ := h.hasText ht
    exact fun e => nomatch (e ▸ hg).symm.trans hc.get?_temp
  refine ⟨h.settled, h.cwd, fun names hb => ?_, ?_, fun y b hb => ?_, apart_of x ?_⟩
  · by_cases he : names = c.temp
    · rw [he, Change.Fits.get?_onto_temp]
      exact nofun
    · rw [Change.Fits.get?_onto names he]
      exact h.stays names hb
  · have hreached := h.reached
    rw [ht] at hreached
    rw [h.textOn_same hc.keepsDirs (Change.Fits.get?_onto _ hfile) ht]
    exact hreached
  · rcases x.eq_or_eq_other y with rfl | rfl
    · rw [Side.set_self] at hb
      rcases List.mem_append.mp hb with hb | hb
      · exact (hothers b (h.waits y b hb)).2
      · exact List.mem_singleton.mp hb ▸ hself
    · rw [Side.set_other] at hb
      exact (hothers b (h.waits x.other b hb)).2
  · have hperm : (staged x ++ [c] ++ staged x.other).Perm (c :: (staged x ++ staged x.other)) := by
      rw [List.append_assoc]
      exact List.perm_middle
    rw [Side.set_self, Side.set_other, (hperm.map _).nodup_iff, List.map_cons, List.nodup_cons]
    refine ⟨fun hm => ?_, h.apart x⟩
    obtain ⟨b, hb, he⟩ := List.mem_map.mp hm
    rcases List.mem_append.mp hb with hb | hb
    · exact (hothers b (h.waits x b hb)).1 he
    · exact (hothers b (h.waits x.other b hb)).1 he

theorem Files.after_over {rest : List Change} (h : m.Files written staged d)
    (hx : (staged x).Perm (c :: rest)) (hd : c.Over d d')
    (hreached : m.Reached written' (m.textOn d')) :
    m.Files written' (Side.set staged x rest) d' := by
  have hw : c.Waits m.before d := h.waits x c (hx.mem_iff.mpr List.mem_cons_self)
  have hperm : (staged x ++ staged x.other).Perm (c :: (rest ++ staged x.other)) :=
    hx.append_right _
  have hnodup := (hperm.map (·.temp)).nodup_iff.mp (h.apart x)
  rw [List.map_cons, List.nodup_cons] at hnodup
  have htemp : ∀ b ∈ rest ++ staged x.other, b.temp ≠ c.temp := fun b hb e =>
    hnodup.1 (e ▸ List.mem_map_of_mem hb)
  refine ⟨h.settled, hd.cwd.trans h.cwd, fun names hb => ?_, hreached, fun y b hb => ?_,
    apart_of x ?_⟩
  · by_cases hfile : names = c.file
    · obtain ⟨bytes, hg⟩ := hd.file
      rw [hfile, hg]
      exact nofun
    · have hne : names ≠ c.temp := fun e => hb (e ▸ hw.new)
      rw [hd.other names hfile hne]
      exact h.stays names hb
  · rcases x.eq_or_eq_other y with rfl | rfl
    · rw [Side.set_self] at hb
      have hwb := h.waits y b (hx.mem_iff.mpr (List.mem_cons_of_mem c hb))
      exact hw.after_over hwb (htemp b (List.mem_append_left _ hb)) hd
    · rw [Side.set_other] at hb
      exact hw.after_over (h.waits x.other b hb) (htemp b (List.mem_append_right _ hb)) hd
  · rw [Side.set_self, Side.set_other]
    exact hnodup.2

/-! ## what others keep -/

theorem steady_stage (hj : m.jobs x ≠ none) (hc : c.Fits c.file d) :
    m.Steady x.other d (c.onto d) := by
  refine ⟨hc.keepsDirs, fun names _ hf => ?_, fun hnone => absurd (x.other_other ▸ hnone) hj⟩
  obtain ⟨bytes, mode, hg⟩ := hf
  have hne : names ≠ c.temp := fun e => nomatch (e ▸ hg).symm.trans hc.get?_temp
  exact ⟨bytes, mode, (Change.Fits.get?_onto names hne).trans hg⟩

theorem steady_over (hj : m.jobs x ≠ none) (hw : c.Waits m.before d) (hd : c.Over d d') :
    m.Steady x.other d d' := by
  refine ⟨hw.pending.keepsDirs hd, fun names hs hf => ?_,
    fun hnone => absurd (x.other_other ▸ hnone) hj⟩
  by_cases he : names = c.file
  · obtain ⟨bytes, hg⟩ := hd.file
    exact ⟨bytes, c.mode, he ▸ hg⟩
  · obtain ⟨bytes, mode, hg⟩ := hf
    exact ⟨bytes, mode, (hd.other names he (hw.ne_temp hs)).trans hg⟩

end

/-! ## moves -/

/-- A call that does not hold the document changes the disk. -/
theorem move_files {v : View} {d' : Disk} {cs : List Change} {written' : List Side}
    (h : m.Sound v) (hheld : v.notes.holding x = false)
    (hw : written' = v.notes.written ∨ written' = v.notes.written ++ [x])
    (hfiles : m.Files written' (Side.set v.notes.staged x cs) d')
    (hsteady : m.Steady x.other v.disk d') :
    m.Move x v ⟨v.client, d', { v.notes with
      written := written'
      staged := Side.set v.notes.staged x cs }⟩ := by
  obtain ⟨more, rfl, hmore⟩ : ∃ more, written' = v.notes.written ++ more ∧ ∀ y ∈ more, y = x := by
    rcases hw with rfl | rfl
    · exact ⟨[], (List.append_nil _).symm, nofun⟩
    · exact ⟨[x], rfl, fun y hy => List.mem_singleton.mp hy⟩
  refine ⟨{ h with files := hfiles, unwritten := fun y hy hm => ?_, told := fun y hy hw => ?_ },
    ⟨⟨more, rfl, fun y hy => (hmore y hy).trans x.other_other.symm⟩, Side.set_other .., rfl,
      rfl, rfl, rfl, fun _ _ hl => ⟨hl, rfl, rfl⟩, fun _ => rfl,
      fun _ _ _ _ hw => ⟨hw.there, hw.answers, hw.replies⟩, hsteady⟩, rfl⟩
  · rcases List.mem_append.mp hm with hm | hm
    · exact h.unwritten y hy hm
    · rw [hmore y hm] at hy
      cases hheld.symm.trans hy
  · exact h.told y hy (List.append_eq_nil_iff.mp hw).1

section
variable {α β : Type} {P : Assertion m x} {Q : α → Assertion m x} {R : β → Assertion m x}

theorem Owes.files_bind {r : Routine Disk α} {f : α → Routine Disk β}
    (h : Owes P (Tool.onFiles r) Q) (hf : ∀ a, Owes (Q a) (Tool.onFiles (f a)) R) :
    Owes P (Tool.onFiles (r.bind f)) R := by
  unfold Tool.onFiles at *
  rw [Routine.zoom_bind]
  exact h.bind hf

theorem owes_files_act {f : Disk → α × Disk}
    (h : ∀ v, m.Sound v → P.Holds v → ∃ g', m.Move x v ⟨v.client, (f v.disk).2, g'⟩ ∧
      (Q (f v.disk).1).Holds ⟨v.client, (f v.disk).2, g'⟩) :
    Owes P (Tool.onFiles (.act f)) Q := by
  refine owes_act (f := fun s => ((f s.disk).1, { s with disk := (f s.disk).2 })) ?_
  intro s g hs hp
  obtain ⟨g', hmove, hq⟩ := h _ hs.sound hp
  exact ⟨g', ⟨hs.standing.slot, hs.standing.client, hs.standing.root⟩, hmove, hq⟩

theorem owes_files_read {f : Disk → α}
    (h : ∀ v, m.Sound v → P.Holds v → (Q (f v.disk)).Holds v) :
    Owes P (Tool.onFiles (.read f)) Q :=
  owes_files_act (f := fun d => (f d, d)) fun v hs hp => ⟨v.notes, .refl hs, h v hs hp⟩

end

/-! ## how far a call is -/

/-- A call that has its edits and has replaced nothing yet; `cs` is what it has staged. -/
structure Stages (m : Meeting) (x : Side) (seen : String) (cs : List Change) (v : View) : Prop where
  unwritten : x ∉ v.notes.written
  known : m.Known x v.notes.written (.ok seen)
  holding : v.notes.holding x = false
  staged : v.notes.staged x = cs
  /-- contents of the file itself -/
  made : ∀ c ∈ cs, c.file = m.site.file → ∃ base new, m.Sees x v.notes.written seen base ∧
    m.Turns x seen base new ∧ c.bytes = Utf8.ofString new

/-- The same, when the next file has been read. -/
structure Reads (m : Meeting) (x : Side) (seen : String) (cs : List Change) (names : List Name)
    (base : String) (v : View) : Prop extends m.Stages x seen cs v where
  nonempty : Path.real names ≠ []
  leads : v.disk.Leads (.ofNames names) (Path.real names)
  hasFile : v.disk.HasFile (Path.real names)
  sees : Path.real names = m.site.file → m.Sees x v.notes.written seen base

/-- A call that has replaced the file and has other files to commit. -/
structure Wrote (m : Meeting) (x : Side) (cs : List Change) (v : View) : Prop where
  written : x ∈ v.notes.written
  holding : v.notes.holding x = false
  staged : v.notes.staged x = cs
  others : ∀ c ∈ cs, c.file ≠ m.site.file

/-- A call that commits: it has replaced the file, or has to do so if it has edits for it. -/
def Commits (m : Meeting) (x : Side) (seen : String) (cs : List Change) (v : View) : Prop :=
  m.Stages x seen cs v ∧ (m.edits x seen ≠ [] → ∃ c ∈ cs, c.file = m.site.file) ∨ m.Wrote x cs v

/-- A call at its end: it has replaced the file, or has failed, or has no edits for the text that it
has read, if any. -/
def Ended (m : Meeting) (x : Side) (ok : Bool) (v : View) : Prop :=
  x ∈ v.notes.written ∨ x ∉ v.notes.written ∧ ∃ read, m.Known x v.notes.written read ∧
    (ok = true → ∀ text, read = .ok text → m.edits x text = [])

namespace Stages
variable {seen : String} {cs : List Change} {v v' : View}

theorem kept (h : m.Stages x seen cs v) (hs : m.Sound v') (hk : m.Kept x v v') :
    m.Stages x seen cs v' where
  unwritten := hk.not_mem h.unwritten
  known := hk.known hs h.unwritten h.known
  holding := hk.holding.trans h.holding
  staged := hk.staged.trans h.staged
  made c hc hf := by
    obtain ⟨base, new, hsee, hmade⟩ := h.made c hc hf
    exact ⟨base, new, hk.sees hs h.unwritten hsee, hmade⟩

theorem readable (h : m.Stages x seen cs v) (hs : m.Sound v) :
    ∃ text, m.textOn v.disk = .ok text := hs.files.reached.readable h.known

end Stages

theorem Wrote.kept {cs : List Change} {v v' : View} (h : m.Wrote x cs v) (hk : m.Kept x v v') :
    m.Wrote x cs v' :=
  ⟨hk.mem h.written, hk.holding.trans h.holding, hk.staged.trans h.staged, h.others⟩

theorem Commits.readable {seen : String} {cs : List Change} {v : View}
    (h : m.Commits x seen cs v) (hs : m.Sound v) : ∃ text, m.textOn v.disk = .ok text :=
  h.elim (·.1.readable hs) fun h => hs.files.reached.text_of_mem h.written

namespace Assertion

def stages (seen : String) (cs : List Change) : Assertion m x where
  Holds := m.Stages x seen cs
  stable hs hk h := h.kept hs hk
  senders _ h := { h with }

def reads (seen : String) (cs : List Change) {names : List Name}
    (hfile : m.before.Spares (Path.real names)) (base : String) : Assertion m x where
  Holds := m.Reads x seen cs names base
  stable hs hk h :=
    { h.toStages.kept hs hk with
      nonempty := h.nonempty
      leads := hk.files.dirs.leads h.leads
      hasFile := hk.files.files _ hfile h.hasFile
      sees := fun hf => hk.sees hs h.unwritten (h.sees hf) }
  senders _ h := { h with }

def commits (seen : String) (cs : List Change) : Assertion m x where
  Holds := m.Commits x seen cs
  stable hs hk h := h.imp (fun ⟨h, he⟩ => ⟨h.kept hs hk, he⟩) fun h => h.kept hk
  senders _ h := h.imp (fun ⟨h, he⟩ => ⟨{ h with }, he⟩) fun h => { h with }

def ended (ok : Bool) : Assertion m x where
  Holds := m.Ended x ok
  stable hs hk h := h.imp hk.mem fun ⟨hx, read, hr, hd⟩ =>
    ⟨hk.not_mem hx, read, hk.known hs hx hr, hd⟩
  senders _ h := h

/-- What the disk is when nobody else is about. -/
def solo (d : Disk) : Assertion m x where
  Holds v := m.jobs x.other = none → v.disk = d
  stable _ hk h hj := (hk.files.solo hj).trans (h hj)
  senders _ h := h

/-- A call has come to its end.  When nobody else is about the disk is what the call leaves. -/
def finished (ok : Bool) : Assertion m x := (ended ok).and (.solo (m.alone x m.before))

def ofRead (seen : String) (cs : List Change) {names : List Name}
    (hfile : m.before.Spares (Path.real names)) : Except IoError String → Assertion m x
  | .ok base => .reads seen cs hfile base
  | .error _ => .stages seen cs

def ofEdited (seen : String) (cs : List Change) {names : List Name}
    (hfile : m.before.Spares (Path.real names)) (edits : List TextEdit) :
    Except EditError String → Assertion m x
  | .ok new => .any fun base : String =>
      (Assertion.fact (applyEditsToText base edits = .ok new)).and (.reads seen cs hfile base)
  | .error _ => .stages seen cs

def stagedOne (seen : String) (cs : List Change) (names : List Name) :
    Except EditError Staged → Assertion m x
  | .ok s => .any fun c : Change =>
      (Assertion.fact (s = c.staged ∧ c.path = names)).and (.stages seen (cs ++ [c]))
  | .error _ => .stages seen cs

def stagedAll (seen : String) (paths : List (List Name)) :
    Except EditError (List Staged) → Assertion m x
  | .ok staged => .any fun cs : List Change =>
      (Assertion.fact (staged = cs.map (·.staged) ∧ cs.map (·.path) = paths)).and (.stages seen cs)
  | .error _ => .stages seen []

end Assertion

/-! ## staging -/

section
variable {seen : String} {cs : List Change} {names : List Name} {edits : List TextEdit}
  {taken : List Name}

theorem owes_stageText (hj : m.jobs x ≠ none) (hp : ∀ n ∈ names, Path.Plain n)
    (hs : m.before.Spares (Path.real names))
    (he : Path.real names = m.site.file → edits = m.edits x seen)
    (hne : edits ≠ []) {base new : String} (hnew : applyEditsToText base edits = .ok new) :
    Owes (.reads seen cs hs base : Assertion m x)
      (Tool.onFiles (Tool.stageText taken (.ofNames names) new)) (.stagedOne seen cs names) := by
  refine owes_files_act fun v hsound hr => ?_
  cases hstage : Staged.stageApart taken v.disk (.ofNames names) (Utf8.ofString new) with
  | error fault => exact ⟨v.notes, .refl hsound, hr.toStages⟩
  | ok out =>
    obtain ⟨s, d'⟩ := out
    obtain ⟨old, mode, hg⟩ := hr.hasFile
    obtain ⟨c, rfl, -, hb, rfl, rfl, hc, hname⟩ :=
      Change.stageApart_fits hr.nonempty hp hr.leads hg hstage
    have htemp : Staged.TempName c.name := ⟨_, hname⟩
    obtain ⟨text, ht⟩ := hr.toStages.readable hsound
    have hfiles := hsound.files.stage (x := x) hc htemp hs ht
    rw [hr.staged] at hfiles
    refine ⟨_, move_files hsound hr.holding (.inl rfl) hfiles (steady_stage hj hc), ?_⟩
    refine ⟨c, ⟨rfl, rfl⟩, { hr with staged := Side.set_self .., made := fun b hm hf => ?_ }⟩
    rcases List.mem_append.mp hm with hm | hm
    · exact hr.made b hm hf
    · obtain rfl := List.mem_singleton.mp hm
      refine ⟨base, new, hr.sees hf, ?_, hb⟩
      unfold Turns
      rw [← he hf]
      exact ⟨hne, hnew⟩

theorem owes_stageFile (hj : m.jobs x ≠ none) (hp : ∀ n ∈ names, Path.Plain n)
    (hs : m.before.Spares (Path.real names))
    (he : Path.real names = m.site.file → edits = m.edits x seen) (hne : edits ≠ []) :
    Owes (.stages seen cs : Assertion m x)
      (Tool.onFiles (Tool.stageFile taken (.ofNames names) edits)) (.stagedOne seen cs names) := by
  have hread : Owes (.stages seen cs : Assertion m x)
      (Tool.onFiles (.read fun d => d.readText (.ofNames names))) (.ofRead seen cs hs) := by
    refine owes_files_read fun v hsound hst => ?_
    cases hr : v.disk.readText (.ofNames names) with
    | error fault => exact hst
    | ok base =>
      obtain ⟨hn, hl, bytes, mode, hg, hb⟩ := Disk.readText_eq_ok hp hr
      refine { hst with nonempty := hn, leads := hl, hasFile := ⟨bytes, mode, hg⟩, sees := ?_ }
      intro hf
      obtain ⟨text, ht⟩ := hst.readable hsound
      have hbase : m.textOn v.disk = .ok base :=
        Disk.readText_of_leads (hsound.files.hasText ht).1 (hf ▸ hg) hb
      exact (hbase ▸ hsound.files.reached).sees hst.unwritten hst.known
  have hedited : Owes (.stages seen cs : Assertion m x)
      (Tool.onFiles ((Routine.read fun d => d.readText (.ofNames names)).bind fun read =>
        .done (Tool.edited (.ofNames names) edits read))) (.ofEdited seen cs hs edits) := by
    refine hread.files_bind fun read => owes_done fun v _ hr => ?_
    cases read with
    | error fault => exact hr
    | ok base =>
      show (Assertion.ofEdited seen cs hs edits
        ((applyEditsToText base edits).mapError EditError.edits)).Holds v
      cases happly : applyEditsToText base edits with
      | error fault => exact hr.toStages
      | ok new => exact ⟨base, happly, hr⟩
  refine hedited.files_bind fun edited => ?_
  cases edited with
  | error fault => exact owes_done fun _ _ hst => hst
  | ok new =>
    exact owes_any fun base => owes_fact fun hnew => owes_stageText hj hp hs he hne hnew

/-- A call discards what it has staged, the last first. -/
theorem owes_discardFiles (hj : m.jobs x ≠ none) (rs : List Change) :
    Owes (.stages seen rs.reverse : Assertion m x)
      (Tool.onFiles (Tool.discardFiles (rs.map (·.staged)))) fun _ => .stages seen [] := by
  induction rs with
  | nil => exact owes_done fun _ _ hst => hst
  | cons c rs ih =>
    have hdiscard : Owes (.stages seen (c :: rs).reverse : Assertion m x)
        (Tool.onFiles (.change fun d => c.staged.discard d)) fun _ =>
          .stages seen rs.reverse := by
      refine owes_files_act (f := fun d => ((), c.staged.discard d)) fun v hsound hst => ?_
      have hperm : (v.notes.staged x).Perm (c :: rs.reverse) := by
        rw [hst.staged, List.reverse_cons]
        exact List.perm_append_singleton c rs.reverse
      have hw := hsound.files.waits x c (hperm.mem_iff.mpr List.mem_cons_self)
      have hdropped := hw.pending.discard
      obtain ⟨text, ht⟩ := hst.readable hsound
      have htext : m.textOn (c.staged.discard v.disk) = .ok text := by
        refine hsound.files.textOn_same (hw.pending.keepsDirs hdropped.toOver) ?_ ht
        by_cases hf : m.site.file = c.file
        · rw [hf]
          exact hdropped.same
        · exact hdropped.other _ hf (hw.ne_temp (hsound.files.spares ht))
      have hreached : m.Reached v.notes.written (m.textOn (c.staged.discard v.disk)) := by
        rw [htext, ← ht]
        exact hsound.files.reached
      have hfiles := hsound.files.after_over hperm hdropped.toOver hreached
      refine ⟨_, move_files hsound hst.holding (.inl rfl) hfiles
        (steady_over hj hw hdropped.toOver), ?_⟩
      refine { hst with staged := Side.set_self .., made := fun b hb hf => ?_ }
      exact hst.made b (List.mem_reverse.mpr (List.mem_cons_of_mem _ (List.mem_reverse.mp hb))) hf
    exact hdiscard.files_bind fun _ => ih

theorem owes_stageFiles (hj : m.jobs x ≠ none) (batches : List (List Name × List TextEdit))
    (rs : List Change) (hp : ∀ b ∈ batches, ∀ n ∈ b.1, Path.Plain n)
    (hs : ∀ b ∈ batches, m.before.Spares (Path.real b.1))
    (he : ∀ b ∈ batches, Path.real b.1 = m.site.file → b.2 = m.edits x seen)
    (hne : ∀ b ∈ batches, b.2 ≠ []) :
    Owes (.stages seen rs.reverse : Assertion m x)
      (Tool.onFiles (Tool.stageFiles taken batches (rs.map (·.staged))))
      (.stagedAll seen (rs.reverse.map (·.path) ++ batches.map (·.1))) := by
  induction batches generalizing rs with
  | nil =>
    refine owes_done fun v _ hst => ⟨rs.reverse, ⟨?_, ?_⟩, hst⟩
    · exact List.map_reverse.symm
    · exact (List.append_nil _).symm
  | cons b batches ih =>
    obtain ⟨hp, hps⟩ := List.forall_mem_cons.mp hp
    obtain ⟨hs, hss⟩ := List.forall_mem_cons.mp hs
    obtain ⟨he, hes⟩ := List.forall_mem_cons.mp he
    obtain ⟨hne, hnes⟩ := List.forall_mem_cons.mp hne
    refine (owes_stageFile hj hp hs he hne).files_bind fun result => ?_
    cases result with
    | error fault =>
      exact (owes_discardFiles hj rs).files_bind fun _ => owes_done fun _ _ hst => hst
    | ok s =>
      refine owes_any fun c => owes_fact fun ⟨hstaged, hfile⟩ => ?_
      have hrest := ih (c :: rs) hps hss hes hnes
      rw [List.reverse_cons, List.map_append, List.append_assoc] at hrest
      rw [hstaged, List.map_cons, ← hfile]
      exact hrest

end

/-! ## committing -/

section
variable {seen : String} {cs : List Change} {c : Change}

/-- Nobody has touched the fresh file of a change that waits, so it can be committed. -/
theorem owes_commitFile (hj : m.jobs x ≠ none) (hc : ∀ b ∈ cs, b.file ≠ c.file) :
    Owes (.commits seen (c :: cs) : Assertion m x) (Tool.onFiles (Tool.commitFile c.staged))
      fun result => (Assertion.fact (result = .ok ())).and (.commits seen cs) := by
  refine owes_files_act (f := fun d => commitEdits d c.staged) fun v hsound hp => ?_
  have hstaged : v.notes.staged x = c :: cs := hp.elim (·.1.staged) (·.staged)
  have hholding : v.notes.holding x = false := hp.elim (·.1.holding) (·.holding)
  have hmem : c ∈ v.notes.staged x := hstaged ▸ List.mem_cons_self
  have hw := hsound.files.waits x c hmem
  obtain ⟨d', hcommit, hmade⟩ := hw.pending.commit
  have hresult : commitEdits v.disk c.staged = (.ok (), d') := by
    unfold commitEdits
    rw [hcommit]
    rfl
  rw [hresult]
  have hperm : (v.notes.staged x).Perm (c :: cs) := hstaged ▸ List.Perm.refl _
  have hsteady := steady_over hj hw hmade.toOver
  by_cases hf : c.file = m.site.file
  · obtain ⟨hst, -⟩ := hp.resolve_right fun h => h.others c List.mem_cons_self hf
    obtain ⟨base, new, hsee, hturns, hbytes⟩ := hst.made c List.mem_cons_self hf
    obtain ⟨text, ht⟩ := hst.readable hsound
    have hnew : m.textOn d' = .ok new := by
      have hleads := (hw.pending.keepsDirs hmade.toOver).leads (hsound.files.hasText ht).1
      refine Disk.readText_of_leads hleads (hf ▸ hmade.made) ?_
      rw [hbytes]
      exact Utf8.text?_ofString new
    have hreached := hsound.files.reached.replace hst.unwritten hsee hturns
    rw [← hnew] at hreached
    refine ⟨_, move_files hsound hholding (.inr rfl)
      (hsound.files.after_over hperm hmade.toOver hreached) hsteady, rfl, .inr ?_⟩
    exact ⟨List.mem_append_right _ List.mem_cons_self, hholding, Side.set_self ..,
      fun b hb e => hc b hb (e.trans hf.symm)⟩
  · obtain ⟨text, ht⟩ := hp.readable hsound
    have hkeep : m.textOn d' = .ok text := by
      refine hsound.files.textOn_same (hw.pending.keepsDirs hmade.toOver) ?_ ht
      exact hmade.other _ (Ne.symm hf) (hw.ne_temp (hsound.files.spares ht))
    have hreached := hsound.files.reached
    rw [ht, ← hkeep] at hreached
    refine ⟨_, move_files hsound hholding (.inl rfl)
      (hsound.files.after_over hperm hmade.toOver hreached) hsteady, rfl, ?_⟩
    rcases hp with ⟨hst, he⟩ | hwr
    · refine .inl ⟨{ hst with
        staged := Side.set_self ..
        made := fun b hb => hst.made b (List.mem_cons_of_mem c hb) }, fun hne => ?_⟩
      obtain ⟨b, hb, hfile⟩ := he hne
      rcases List.mem_cons.mp hb with rfl | hb
      · exact absurd hfile hf
      · exact ⟨b, hb, hfile⟩
    · exact .inr { hwr with
        staged := Side.set_self ..
        others := fun b hb => hwr.others b (List.mem_cons_of_mem c hb) }

/-- What has been committed has been replaced. -/
theorem ended_of_commits {v : View} (h : m.Commits x seen [] v) : m.Ended x true v := by
  rcases h with ⟨hst, he⟩ | hwr
  · refine .inr ⟨hst.unwritten, .ok seen, hst.known, fun _ text ht => ?_⟩
    obtain rfl := Except.ok.inj ht
    exact Decidable.of_not_not fun hne => nomatch he hne
  · exact .inl hwr.written

theorem owes_commitFiles (hj : m.jobs x ≠ none) (hn : (cs.map (·.file)).Nodup) :
    Owes (.commits seen cs : Assertion m x) (Tool.onFiles (Tool.commitFiles (cs.map (·.staged))))
      fun result => .ended result.isOk := by
  induction cs with
  | nil => exact owes_done fun v _ hp => ended_of_commits hp
  | cons c cs ih =>
    rw [List.map_cons, List.nodup_cons] at hn
    have hc : ∀ b ∈ cs, b.file ≠ c.file := fun b hb e => hn.1 (e ▸ List.mem_map_of_mem hb)
    refine (owes_commitFile hj hc).files_bind fun result => owes_fact fun hr => ?_
    subst hr
    exact ih hn.2

/-- The files of the changes that a call has staged for its batches. -/
theorem files_of_paths {batches : List (List Name × List TextEdit)}
    (hc : cs.map (·.path) = batches.map (·.1)) : cs.map (·.file) = filesOf batches := by
  have hmap := congrArg (List.map Path.real) hc
  rwa [List.map_map, List.map_map] at hmap

/-- A call that has staged a change for each file that its edits name can commit them. -/
theorem commits_of_stages {v : View} (h : m.Stages x seen cs v)
    (hc : cs.map (·.path) = (m.batches x seen).map (·.1)) : m.Commits x seen cs v := by
  refine .inl ⟨h, fun hne => ?_⟩
  have hfile : m.site.file ∈ cs.map (·.file) :=
    files_of_paths hc ▸ Decidable.of_not_not fun hm => hne (editsAt_of_not_mem hm)
  exact List.mem_map.mp hfile

end

/-! ## all of it -/

theorem batches_spec (m : Meeting) (x : Side) (text : String) : Batches (m.batches x text) := by
  unfold batches
  split
  · exact Rewriting.batches_spec _ _ _
  · exact .nil

section
variable {text : String}

/-- Nothing has come of what a call has tried. -/
theorem ended_of_stages {v : View} {cs : List Change} (h : m.Stages x text cs v) :
    m.Ended x false v :=
  .inr ⟨h.unwritten, .ok text, h.known, nofun⟩

theorem ended_of_nothing {v : View} {cs : List Change} (h : m.Stages x text cs v)
    (hb : m.edits x text = []) (ok : Bool) : m.Ended x ok v := by
  refine .inr ⟨h.unwritten, .ok text, h.known, fun _ text' ht => ?_⟩
  rw [← Except.ok.inj ht]
  exact hb

/-- A call changes the one file that its edits name. -/
theorem owes_changeFile {edits : List TextEdit} (hj : m.jobs x ≠ none)
    (hs : Proper m.before (m.batches x text))
    (hb : m.batches x text = m.site.batch edits) :
    Owes (.stages text [] : Assertion m x)
      (Tool.onFiles (Tool.changeFile (.ofNames m.site.names) edits))
      fun result => .ended result.isOk := by
  have hedits : m.edits x text = edits := by
    unfold Meeting.edits
    rw [hb]
    exact m.site.editsAt_batch edits
  unfold Tool.changeFile
  split
  next hempty =>
    refine owes_done fun v _ hst => ended_of_nothing hst ?_ _
    exact hedits.trans (List.isEmpty_iff.mp hempty)
  next hempty =>
    have hmem : (m.site.names, edits) ∈ m.batches x text := by
      rw [hb, Site.batch, if_neg hempty]
      exact List.mem_cons_self
    refine (owes_stageFile hj (Path.plain_of_mem_resolve m.site.path) (hs.spared _ hmem)
      (fun _ => hedits.symm) fun e => hempty (List.isEmpty_iff.mpr e)).files_bind fun result => ?_
    cases result with
    | error fault => exact owes_done fun v _ hst => ended_of_stages hst
    | ok s =>
      refine owes_any fun c => owes_fact fun ⟨hstaged, hfile⟩ => ?_
      subst hstaged
      have hcommit : Owes (.commits text [c] : Assertion m x)
          (Tool.onFiles (Tool.commitFile c.staged)) fun result => .ended result.isOk := by
        have hlone : ∀ b ∈ ([] : List Change), b.file ≠ c.file := nofun
        refine (owes_commitFile hj hlone).mono fun result v ⟨hr, hp⟩ => ?_
        rw [show result = .ok () from hr]
        exact ended_of_commits hp
      refine hcommit.imp fun v _ hst => .inl ⟨hst, fun _ => ?_⟩
      exact ⟨c, List.mem_cons_self, congrArg Path.real hfile⟩

theorem owes_changeTarget {edit : WorkspaceEdit} (hj : m.jobs x ≠ none)
    (hs : Proper m.before (m.batches x text))
    (hb : m.batches x text = m.site.batch (editsFor m.site.names edit)) :
    Owes (.stages text [] : Assertion m x)
      (Tool.onFiles (Tool.changeTarget (.ofNames m.site.names) edit))
      fun result => .ended result.isOk := by
  have hcwd : Owes (.stages text [] : Assertion m x) (Tool.onFiles (.read fun d => d.cwd))
      fun _ => .stages text [] := owes_files_read fun _ _ hst => hst
  refine hcwd.files_bind fun cwd => ?_
  have hplain := Path.plain_of_mem_resolve m.site.path
  have hpath : resolvePath cwd (.ofNames m.site.names) = .ok m.site.names := by
    unfold resolvePath
    rw [if_pos (Path.isAbsolute_ofNames _), Path.resolve_ofNames m.site.names hplain]
  rw [hpath]
  have hfile : ∀ changed : Bool, Owes (.stages text [] : Assertion m x)
      (Tool.onFiles ((Tool.changeFile (.ofNames m.site.names) (editsFor m.site.names edit)).bind
        fun result => .done (result.map fun _ => changed))) fun result => .ended result.isOk :=
    fun changed => (owes_changeFile hj hs hb).files_bind fun result => owes_done fun v _ hp => by
      rw [isOk_map]
      exact hp
  dsimp only
  cases hedits : editsFor m.site.names edit with
  | nil =>
    rw [hedits] at hfile
    exact hfile false
  | cons e edits =>
    rw [hedits] at hfile
    exact hfile true

theorem owes_changeFiles {edit : WorkspaceEdit} (hj : m.jobs x ≠ none)
    (hs : Proper m.before (m.batches x text))
    (hb : m.batches x text = (groupByFile edit.documents []).toOption.getD []) :
    Owes (.stages text [] : Assertion m x) (Tool.onFiles (Tool.changeFiles edit))
      fun result => .ended result.isOk := by
  have hspec := m.batches_spec x text
  unfold Tool.changeFiles
  cases hgroups : groupByFile edit.documents [] with
  | error fault => exact owes_done fun v _ hst => ended_of_stages hst
  | ok groups =>
    rw [hgroups] at hb
    replace hb : m.batches x text = groups := hb
    subst hb
    have hstage : Owes (.stages text [] : Assertion m x)
        (Tool.onFiles (Tool.stageFiles ((m.batches x text).flatMap (·.1)) (m.batches x text) []))
        (.stagedAll text ((m.batches x text).map (·.1))) :=
      owes_stageFiles hj (m.batches x text) [] hspec.plain hs.spared
        (fun b hb hf => by rw [← editsAt_of_mem hs.distinct hb, hf]; rfl) hspec.nonempty
    refine hstage.files_bind fun result => ?_
    cases result with
    | error fault => exact owes_done fun v _ hst => ended_of_stages hst
    | ok staged =>
      refine owes_any fun cs => owes_fact fun ⟨hstaged, hfiles⟩ => ?_
      subst hstaged
      have hcommit : Owes (.stages text cs : Assertion m x)
          (Tool.onFiles (Tool.commitFiles (cs.map (·.staged)))) fun result => .ended result.isOk :=
        (owes_commitFiles hj (files_of_paths hfiles ▸ hs.distinct)).imp fun v _ hst =>
          commits_of_stages hst hfiles
      refine hcommit.files_bind fun result => owes_done fun v _ hp => ?_
      rw [isOk_map]
      exact hp

end

/-! ## nobody else -/

section
variable {α : Type} {P : Assertion m x} {Q : α → Assertion m x}

/-- When nobody else is about, the steps of a call come to what they do by themselves. -/
theorem Owes.solo {work : Routine Disk α} {a : α} {d d' : Disk} (h : Owes P (Tool.onFiles work) Q)
    (hd : work.through d = some (a, d')) :
    Owes (P.and (.solo d)) (Tool.onFiles work) fun a => (Q a).and (.solo d') := by
  by_cases hj : m.jobs x.other = none
  · -- the steps that are left go on from where the disk is
    have hgo : ∀ (w : Host × Notes) (work : Routine Disk α),
        (Tool.onFiles work).Keeps (m.terms x) Routine.dropAny
          (fun a w => m.Fine w ∧ (Q a).Holds (m.view w)) w →
        work.through w.1.disk = some (a, d') → m.Fine w →
        (Tool.onFiles work).Keeps (m.terms x) Routine.dropAny
          (fun a w => m.Fine w ∧ ((Q a).and (.solo d')).Holds (m.view w)) w := by
      intro w work
      induction work generalizing w with
      | done b =>
        intro hk hd hw w' hr
        obtain ⟨hw', hkept⟩ := hr hw
        obtain rfl : w.1.disk = d' := (Prod.mk.inj (Option.some.inj hd)).2
        exact ⟨hw', (hk w' hr).2, fun _ => hkept.files.solo hj⟩
      | step update next ih =>
        intro hk hd hw s g hr
        obtain ⟨hs, hkept⟩ := hr hw
        obtain ⟨g', hguar, hnext⟩ := hk s g hr
        have hdisk : s.disk = w.1.disk := hkept.files.solo hj
        rw [← hdisk] at hd
        exact ⟨g', hguar, ih s.disk _ hnext hd (hguar hs).1⟩
      | wait ready limit abandon next ih => exact fun _ hd => nomatch hd
      | pause abandon next ih => exact fun _ hd => nomatch hd
    refine ⟨fun w hw hp => hgo w work (h.keeps w hw hp.1) ?_ hw⟩
    rw [show w.1.disk = d from hp.2 hj]
    exact hd
  · exact ⟨fun w hw hp => (h.keeps w hw hp.1).mono fun _ _ hq =>
      ⟨hq.1, hq.2, fun hnone => absurd hnone hj⟩⟩

/-- Others may go on between the steps of work that is handed over. -/
theorem Owes.handedOver {work : Routine Disk α} (h : Owes P (Tool.onFiles work) Q) :
    Owes P (Tool.onFiles work.handedOver) Q :=
  ⟨fun w hw hp => (h.keeps w hw hp).zoom_handedOver⟩

/-- Work on the disk that comes to what the call leaves. -/
theorem owes_onDisk {ε : Type} {text : String} {made : Nat} {work : Routine Disk (Except ε α)}
    {out : Except ε α × Disk}
    (h : Owes (.stages text [] : Assertion m x) (Tool.onFiles work) fun result =>
      .ended result.isOk)
    (hd : work.through m.before = some out) (hout : m.leaves x (.ok text) m.before = out.2) :
    Owes (.phase (.ok text) made false : Assertion m x) (Tool.onDisk work) fun result =>
      .finished result.isOk := by
  have hstart : ∀ v, m.Sound v → (Assertion.phase (.ok text) made false : Assertion m x).Holds v →
      ((Assertion.fact (m.jobs x.other = none →
          m.alone x m.before = m.leaves x (.ok text) m.before)).and
        ((Assertion.stages text [] : Assertion m x).and (.solo m.before))).Holds v :=
    fun v _ hp => ⟨hp.known.alone_eq,
      ⟨hp.unwritten, hp.known, hp.holding, hp.staged, nofun⟩, hp.solo⟩
  refine Owes.imp (owes_fact fun halone => ?_) hstart
  have hwork : Owes ((Assertion.stages text [] : Assertion m x).and (.solo m.before))
      (Tool.onFiles work) fun result => .finished result.isOk :=
    (h.solo hd).mono fun _ _ hp => ⟨hp.1, fun hnone =>
      (hp.2 hnone).trans (hout.symm.trans (halone hnone).symm)⟩
  exact hwork.handedOver.bind fun _ => owes_offload.bind fun _ => owes_done fun _ _ hp => hp

end

end Meeting

end CodeBridge
