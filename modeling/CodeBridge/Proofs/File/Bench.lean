import CodeBridge.Proofs.File.Backup

/-!
# Several staged files at once

Staged files for the same target or for different ones are held at the same time, while the targets
are also written and removed from outside.  The name of each fresh file is chosen from outside, and
only has to be free.

* `FileDeed`, `Bench.step`   what can be done, and what it does to the disk and to the handles;
* `strays`                   the entries that were not there at first and are no target's: the fresh
                             files;
* `Kept`                     the invariant: directories stay, every handle has its own fresh file
                             with its own contents, and nothing else is changed but targets;
* `Bench.isolated`           so nothing is seen of a staged file before its commit.
-/

namespace CodeBridge

/-! ## staging under a given name -/

namespace Disk

def mode? (d : Disk) (p : Path) : Option Nat :=
  match d.stat p with
  | .ok (_, node) => some node.mode
  | .error _ => none

def place? (d : Disk) (p : Path) : Option (List Name) := (d.locate p).toOption.map (·.names)

end Disk

namespace Staged

/-- The path of a fresh file beside a target. -/
def tempAt (name : Name) (d : Disk) (target : Path) : Except IoError Path :=
  match target.parent.isAbsolute, d.cwd with
  | true, _ => .ok (target.parent.join ⟨name⟩)
  | false, some cwd => .ok (((Path.ofNames cwd).join target.parent).join ⟨name⟩)
  | false, none => .error .notFound

/-- Write contents beside their target, under the name that is given. -/
def stageAs (name : Name) (d : Disk) (target : Path) (bytes : Bytes) :
    Except IoError (Staged × Disk) := do
  let temp ← tempAt name d target
  let d' ← d.write temp bytes tempMode
  return (⟨temp, target, d.mode? target⟩, d')

/-- Staging is staging under a fresh name. -/
theorem stageApart_eq (taken : List Name) (d : Disk) (target : Path) (bytes : Bytes) :
    stageApart taken d target bytes = stageAs (freshName taken d.system) d target bytes := by
  unfold stageApart stageAs tempAt
  cases target.parent.isAbsolute with
  | true => rfl
  | false =>
    cases d.cwd with
    | none => rfl
    | some cwd => rfl

end Staged

/-! ## what files do to a disk -/

namespace Disk
variable {d d' d'' : Disk} {p : Path} {names : List Name} {bytes : Bytes} {mode : Nat}

/-- Only files come, change or go, and only under the names that are listed. -/
structure Touches (d d' : Disk) (names : List (List Name)) : Prop where
  cwd : d'.cwd = d.cwd
  other : ∀ k, k ∉ names → d'.get? k = d.get? k
  before : ∀ k ∈ names, ∀ m, d.get? k ≠ some (.dir m)
  after : ∀ k ∈ names, ∀ m, d'.get? k ≠ some (.dir m)

namespace Touches
variable {names names' : List (List Name)}

theorem refl (d : Disk) : d.Touches d [] := ⟨rfl, fun _ _ => rfl, nofun, nofun⟩

theorem trans (h : d.Touches d' names) (h' : d'.Touches d'' names') :
    d.Touches d'' (names ++ names') := by
  refine ⟨h'.cwd.trans h.cwd, fun k hk => ?_, fun k hk m => ?_, fun k hk m => ?_⟩
  · rw [List.mem_append, not_or] at hk
    rw [h'.other k hk.2, h.other k hk.1]
  · by_cases hn : k ∈ names
    · exact h.before k hn m
    · rw [← h.other k hn]
      exact h'.before k ((List.mem_append.mp hk).resolve_left hn) m
  · by_cases hn : k ∈ names'
    · exact h'.after k hn m
    · rw [h'.other k hn]
      exact h.after k ((List.mem_append.mp hk).resolve_right hn) m

theorem keepsDirs (h : d.Touches d' names) : d.KeepsDirs d' :=
  .of_agree names h.cwd h.before h.other

theorem back (h : d.Touches d' names) : d'.KeepsDirs d :=
  .of_agree names h.cwd.symm h.after fun k hk => (h.other k hk).symm

end Touches

instance : Decidable (d.Leads p names) := inferInstanceAs (Decidable (_ = _))

theorem place?_of_leads (h : d.Leads p names) : d.place? p = some names := by
  unfold place?
  rw [show d.locate p = _ from h]
  rfl

theorem touches_set (hne : names ≠ []) (hd : ∀ m, d.get? names ≠ some (.dir m)) :
    d.Touches (d.update fun fs => fs.set names (.file bytes mode)) [names] := by
  have hself : (d.update fun fs => fs.set names (.file bytes mode)).get? names =
      some (.file bytes mode) := d.system.get?_set_self names _ hne
  refine ⟨rfl, fun k hk => ?_, fun k hk => ?_, fun k hk m => ?_⟩
  · exact d.system.get?_set_ne names k _ fun e => hk (e ▸ List.mem_cons_self)
  · rw [List.mem_singleton.mp hk]
    exact hd
  · rw [List.mem_singleton.mp hk, hself]
    exact nofun

theorem write_touches (h : d.write p bytes mode = .ok d') :
    ∃ names, d.Leads p names ∧
      (∃ m, d'.get? names = some (.file bytes m) ∧ (d.get? names = none → m = mode)) ∧
      d.Touches d' [names] := by
  obtain ⟨⟨names, asDir, fixed⟩, hl, h⟩ := bind_eq_ok h
  obtain ⟨rfl, rfl⟩ := place_of_locate hl
  have hend : ∀ m, (∀ m, d.get? names ≠ some (.dir m)) → asksDir p = false →
      (d.get? names = none → m = mode) →
      d.update (fun fs => fs.set names (.file bytes m)) = d' →
      ∃ names, d.Leads p names ∧
        (∃ m, d'.get? names = some (.file bytes m) ∧ (d.get? names = none → m = mode)) ∧
        d.Touches d' [names] := by
    rintro m hd ha hm rfl
    have hne : names ≠ [] := by
      rintro rfl
      exact hd _ rfl
    rw [ha, (endsInStep_of_not_asksDir ha hl).resolve_right hne] at hl
    exact ⟨names, hl, ⟨m, d.system.get?_set_self names _ hne, hm⟩, touches_set hne hd⟩
  dsimp only at h
  split at h
  · cases h
  next old m hn =>
    split at h
    · cases h
    next ha =>
      refine hend m (fun m => by rw [hn]; exact nofun) (Bool.not_eq_true _ ▸ ha) (fun e => ?_)
        (Except.ok.inj h)
      rw [hn] at e
      cases e
  next hn =>
    split at h
    · cases h
    next ha =>
      exact hend mode (fun m => by rw [hn]; exact nofun) (Bool.not_eq_true _ ▸ ha) (fun _ => rfl)
        (Except.ok.inj h)

theorem unlink_touches (h : d.unlink p = .ok d') :
    ∃ names, d.Leads p names ∧ d.Touches d' [names] := by
  obtain ⟨⟨names, node⟩, hs, h⟩ := bind_eq_ok h
  cases node with
  | dir m => cases h
  | file bytes m =>
    obtain ⟨hl, hn, ha⟩ := (stat_eq_ok_iff d p names _).mp hs
    replace ha : asksDir p = false := Bool.eq_false_iff.mpr fun h => nomatch ha h
    have hne : names ≠ [] := by
      rintro rfl
      cases hn
    rw [ha, (endsInStep_of_not_asksDir ha hl).resolve_right hne] at hl
    obtain rfl := Except.ok.inj h
    have hgone : Disk.get? (d.update fun fs => fs.erase names) names = none :=
      d.system.get?_erase_self names hne
    refine ⟨names, hl, rfl, fun k hk => ?_, fun k hk m => ?_, fun k hk m => ?_⟩
    · exact d.system.get?_erase_ne names k fun e => hk (e ▸ List.mem_cons_self)
    · rw [List.mem_singleton.mp hk, hn]
      exact nofun
    · rw [List.mem_singleton.mp hk, hgone]
      exact nofun

end Disk

namespace Staged
variable {s : Staged} {d d' : Disk} {name : Name} {target : Path} {temp : List Name} {bytes : Bytes}
  {mode : Nat}

theorem tempAt_of_stageAs (h : stageAs name d target bytes = .ok (s, d')) :
    tempAt name d target = .ok s.temp := by
  obtain ⟨path, hp, h⟩ := bind_eq_ok h
  obtain ⟨written, -, h⟩ := bind_eq_ok h
  obtain ⟨rfl, -⟩ := Prod.mk.inj (Except.ok.inj h)
  exact hp

theorem waits_of_stageAs (h : stageAs name d target bytes = .ok (s, d'))
    (hfree : ∀ names, d.Leads s.temp names → d.get? names = none) :
    s.target = target ∧ s.mode = d.mode? target ∧
      ∃ temp, d.Leads s.temp temp ∧ s.Waits d' temp bytes tempMode ∧ d.Touches d' [temp] := by
  obtain ⟨path, -, h⟩ := bind_eq_ok h
  obtain ⟨written, hw, h⟩ := bind_eq_ok h
  obtain ⟨rfl, rfl⟩ := Prod.mk.inj (Except.ok.inj h)
  obtain ⟨temp, hl, ⟨m, hf, hm⟩, htouch⟩ := Disk.write_touches hw
  obtain rfl := hm (hfree temp hl)
  exact ⟨rfl, rfl, temp, hl, ⟨htouch.keepsDirs.leads hl, hf⟩, htouch⟩

theorem touches_discard (hw : s.Waits d temp bytes mode) : d.Touches (s.discard d) [temp] := by
  have hget := hw.get?_discard
  refine ⟨hw.cwd_discard, fun k hk => ?_, fun k hk m => ?_, fun k hk m => ?_⟩
  · have hne : k ≠ temp := fun e => hk (e ▸ List.mem_cons_self)
    rw [hget, if_neg hne]
  · rw [List.mem_singleton.mp hk, hw.file]
    exact nofun
  · rw [List.mem_singleton.mp hk, hget, if_pos rfl]
    exact nofun

/-- What a commit does where there is no directory in the way. -/
theorem touches_commit (hw : s.Waits d temp bytes mode)
    (hleaf : ∀ rest, rest ≠ [] → d.get? (temp ++ rest) = none)
    (hnd : ∀ names m, d.stat s.target ≠ .ok (names, .dir m)) :
    (∃ target done, d.Leads s.target target ∧ s.commit d = (.ok (), done) ∧
      done.stat s.target = .ok (target, .file bytes (s.mode.getD mode)) ∧
      d.Touches done [temp, target] ∧ (temp ≠ target → done.get? temp = none)) ∨
    ∃ fault, s.commit d = (.error fault, s.discard d) := by
  refine (commit_of_no_dir hw hleaf hnd).imp_left ?_
  rintro ⟨target, done, hl, hg, hc, hkeeps, hf, hgone, ho⟩
  have htemp : ∀ m, done.get? temp ≠ some (.dir m) := by
    intro m
    by_cases e : temp = target
    · rw [e, hf]
      exact nofun
    · rw [hgone e]
      exact nofun
  refine ⟨target, done, hl, hc, Disk.stat_of_leads (hkeeps.leads hl) hf,
    ⟨hkeeps.cwd, fun k hk => ?_, fun k hk m => ?_, fun k hk m => ?_⟩, hgone⟩
  · exact ho k (fun e => hk (e ▸ List.mem_cons_self))
      fun e => hk (e ▸ List.mem_cons_of_mem _ List.mem_cons_self)
  · rcases List.mem_cons.mp hk with rfl | hk
    · rw [hw.file]
      exact nofun
    · rw [List.mem_singleton.mp hk]
      exact hg m
  · rcases List.mem_cons.mp hk with rfl | hk
    · exact htemp m
    · rw [List.mem_singleton.mp hk, hf]
      exact nofun

/-- Whether a commit succeeds or fails, the fresh file is gone and only the target may have
changed. -/
theorem commit_ends (hw : s.Waits d temp bytes mode)
    (hleaf : ∀ rest, rest ≠ [] → d.get? (temp ++ rest) = none)
    (hnd : ∀ names m, d.stat s.target ≠ .ok (names, .dir m)) (hne : ¬ d.Leads s.target temp) :
    ∃ ks, d.Touches (s.commit d).2 ks ∧ temp ∈ ks ∧ (s.commit d).2.get? temp = none ∧
      ∀ k ∈ ks, k = temp ∨ d.Leads s.target k := by
  rcases touches_commit hw hleaf hnd with ⟨target, done, hl, hc, -, htouch, hgone⟩ | ⟨fault, hc⟩
  · rw [hc]
    refine ⟨_, htouch, List.mem_cons_self, hgone fun e => hne (e ▸ hl), fun k hk => ?_⟩
    rcases List.mem_cons.mp hk with rfl | hk
    · exact .inl rfl
    · exact .inr (List.mem_singleton.mp hk ▸ hl)
  · rw [hc]
    exact ⟨_, touches_discard hw, List.mem_cons_self, (hw.get?_discard temp).trans (if_pos rfl),
      fun k hk => .inl (List.mem_singleton.mp hk)⟩

end Staged

/-! ## deeds -/

/-- What is done to staged files and to their targets.  A staged file is known by the number of the
deed that made it. -/
inductive FileDeed where
  | stage (name : Name) (target : Path) (bytes : Bytes)
  | commit (number : Nat)
  | drop (number : Nat)
  /-- staged and committed at once -/
  | replace (name : Name) (target : Path) (bytes : Bytes)
  /-- written from outside -/
  | write (target : Path) (bytes : Bytes) (mode : Nat)
  /-- removed from outside -/
  | remove (target : Path)
  deriving DecidableEq, Repr

def FileDeed.target? : FileDeed → Option Path
  | .stage _ target _ | .replace _ target _ | .write target _ _ | .remove target => some target
  | .commit _ | .drop _ => none

/-- A disk and the staged files that are held. -/
structure Bench where
  disk : Disk
  handles : List (Nat × Staged)
  /-- deeds so far -/
  count : Nat

namespace Bench

def find? (b : Bench) (number : Nat) : Option Staged :=
  (b.handles.find? (·.1 = number)).map (·.2)

def after (b : Bench) : FileDeed → Disk
  | .stage name target bytes =>
    match Staged.stageAs name b.disk target bytes with
    | .ok (_, d) => d
    | .error _ => b.disk
  | .commit number =>
    match b.find? number with
    | some s => (s.commit b.disk).2
    | none => b.disk
  | .drop number =>
    match b.find? number with
    | some s => s.discard b.disk
    | none => b.disk
  | .replace name target bytes =>
    match Staged.stageAs name b.disk target bytes with
    | .ok (s, d) => (s.commit d).2
    | .error _ => b.disk
  | .write target bytes mode => (b.disk.write target bytes mode).toOption.getD b.disk
  | .remove target => (b.disk.unlink target).toOption.getD b.disk

def held (b : Bench) : FileDeed → List (Nat × Staged)
  | .stage name target bytes =>
    match Staged.stageAs name b.disk target bytes with
    | .ok (s, _) => (b.count, s) :: b.handles
    | .error _ => b.handles
  | .commit number | .drop number => b.handles.filter (·.1 ≠ number)
  | .replace .. | .write .. | .remove .. => b.handles

def step (b : Bench) (deed : FileDeed) : Bench := ⟨b.after deed, b.held deed, b.count + 1⟩

def run (d : Disk) (deeds : List FileDeed) : Bench := deeds.foldl step ⟨d, [], 0⟩

theorem run_concat (d : Disk) (deeds : List FileDeed) (deed : FileDeed) :
    run d (deeds ++ [deed]) = (run d deeds).step deed := by
  unfold run
  rw [List.foldl_append]
  rfl

end Bench

/-! ## what belongs to nobody -/

section
variable (d₀ : Disk) (targets : List Path)

/-- Names under which there was nothing at first and to which no target leads. -/
def Spare (k : List Name) : Prop := d₀.get? k = none ∧ ∀ p ∈ targets, ¬ d₀.Leads p k

instance (k : List Name) : Decidable (Spare d₀ targets k) := inferInstanceAs (Decidable (_ ∧ _))

/-- The entries that were not there at first and are no target's. -/
def strays (d : Disk) : List (List Name) := (d.system.keys.filter (Spare d₀ targets)).dedup

theorem mem_strays (d : Disk) (k : List Name) :
    k ∈ strays d₀ targets d ↔ Spare d₀ targets k ∧ ∃ node, d.get? k = some node := by
  unfold strays
  rw [List.mem_dedup, List.mem_filter, decide_eq_true_eq, and_comm]
  refine and_congr_right fun hs => ⟨d.system.get?_of_mem_keys k, fun ⟨node, hg⟩ => ?_⟩
  refine d.system.mem_keys_of_get? k node ?_ hg
  rintro rfl
  cases hs.1

/-! ## the invariant -/

/-- The fresh file of a deed is to stand where there is nothing, and not in the place of a
target. -/
def FileDeed.Fresh (d : Disk) : FileDeed → Prop
  | .stage name target _ | .replace name target _ =>
    ∀ temp k, Staged.tempAt name d target = .ok temp → d.Leads temp k →
      d.get? k = none ∧ ∀ p ∈ targets, ¬ d.Leads p k
  | _ => True

/-- What a handle stands for: the deed that made it, and the fresh file that is still there. -/
structure Holds (deeds : List FileDeed) (d : Disk) (number : Nat) (s : Staged) (temp : List Name)
    (bytes : Bytes) : Prop where
  made : ∃ name, deeds[number]? = some (.stage name s.target bytes)
  mode : s.mode = (Bench.run d₀ (deeds.take number)).disk.mode? s.target
  spare : Spare d₀ targets temp
  waits : s.Waits d temp bytes Staged.tempMode

structure Kept (deeds : List FileDeed) (b : Bench) : Prop where
  run : b = Bench.run d₀ deeds
  count : b.count = deeds.length
  keeps : d₀.KeepsDirs b.disk
  back : b.disk.KeepsDirs d₀
  /-- every handle has its fresh file -/
  holds : ∀ h ∈ b.handles, ∃ temp bytes, Holds d₀ targets deeds b.disk h.1 h.2 temp bytes
  numbers : (b.handles.map (·.1)).Nodup
  apart : (b.handles.map fun h => d₀.place? h.2.temp).Nodup
  /-- nothing else is changed but targets -/
  other : ∀ k, (∀ p ∈ targets, ¬ d₀.Leads p k) → (∀ h ∈ b.handles, d₀.place? h.2.temp ≠ some k) →
    b.disk.get? k = d₀.get? k

variable {d₀ : Disk} {targets : List Path} {deeds : List FileDeed} {b : Bench}

theorem Holds.place (hb : b.disk.KeepsDirs d₀) {number : Nat} {s : Staged} {temp : List Name}
    {bytes : Bytes} (h : Holds d₀ targets deeds b.disk number s temp bytes) :
    d₀.place? s.temp = some temp := Disk.place?_of_leads (hb.leads h.waits.leads)

theorem Holds.target_mem {d : Disk} {number : Nat} {s : Staged} {temp : List Name} {bytes : Bytes}
    (h : Holds d₀ targets deeds d number s temp bytes)
    (htargets : ∀ e ∈ deeds, ∀ p ∈ e.target?, p ∈ targets) : s.target ∈ targets := by
  obtain ⟨name, hm⟩ := h.made
  exact htargets _ (List.mem_of_getElem? hm) _ rfl

/-- A handle keeps what it stands for when its fresh file is not touched. -/
theorem Holds.next {d d' : Disk} {number : Nat} {s : Staged} {temp : List Name} {bytes : Bytes}
    (h : Holds d₀ targets deeds d number s temp bytes) (deed : FileDeed) (hk : d.KeepsDirs d')
    (hsame : d'.get? temp = d.get? temp) :
    Holds d₀ targets (deeds ++ [deed]) d' number s temp bytes := by
  obtain ⟨name, hm⟩ := h.made
  obtain ⟨hlt, -⟩ := List.getElem?_eq_some_iff.mp hm
  refine ⟨⟨name, ?_⟩, ?_, h.spare, hk.leads h.waits.leads, hsame.trans h.waits.file⟩
  · rw [List.getElem?_append_left hlt, hm]
  · rw [List.take_append_of_le_length (Nat.le_of_lt hlt), h.mode]

namespace Kept

theorem init (d₀ : Disk) (targets : List Path) : Kept d₀ targets [] ⟨d₀, [], 0⟩ :=
  ⟨rfl, rfl, .refl d₀, .refl d₀, nofun, List.nodup_nil, List.nodup_nil, fun _ _ _ => rfl⟩

theorem less (h : Kept d₀ targets deeds b) (deed : FileDeed) (ks : List (List Name))
    (htouch : b.disk.Touches (b.after deed) ks) (hsub : (b.held deed).Sublist b.handles)
    (hks : ∀ k ∈ ks, (∃ p ∈ targets, d₀.Leads p k) ∨
      (b.after deed).get? k = none ∧ Spare d₀ targets k ∧
        ∀ h ∈ b.held deed, d₀.place? h.2.temp ≠ some k)
    (hgone : ∀ h ∈ b.handles, h ∉ b.held deed → ∀ k, d₀.place? h.2.temp = some k → k ∈ ks) :
    Kept d₀ targets (deeds ++ [deed]) (b.step deed) := by
  have hkeeps := htouch.keepsDirs
  refine ⟨(congrArg (Bench.step · deed) h.run).trans (Bench.run_concat d₀ deeds deed).symm, ?_,
    h.keeps.trans hkeeps, htouch.back.trans h.back, fun e he => ?_,
    h.numbers.sublist (hsub.map _), h.apart.sublist (hsub.map _), fun k hk hh => ?_⟩
  · show b.count + 1 = _
    rw [h.count, List.length_append, List.length_singleton]
  · obtain ⟨temp, bytes, hold⟩ := h.holds e (hsub.subset he)
    have hnot : temp ∉ ks := by
      intro hm
      rcases hks temp hm with ⟨p, hp, hl⟩ | ⟨-, -, hne⟩
      · exact hold.spare.2 p hp hl
      · exact hne e he (hold.place h.back)
    exact ⟨temp, bytes, hold.next deed hkeeps (htouch.other temp hnot)⟩
  · show (b.after deed).get? k = _
    by_cases hm : k ∈ ks
    · rcases hks k hm with ⟨p, hp, hl⟩ | ⟨hn, hs, -⟩
      · exact absurd hl (hk p hp)
      · rw [hn, hs.1]
    · rw [htouch.other k hm]
      refine h.other k hk fun e he hp => ?_
      by_cases hheld : e ∈ b.held deed
      · exact hh e hheld hp
      · exact hm (hgone e he hheld k hp)

theorem leaf (h : Kept d₀ targets deeds b) (hroot : d₀.system.Rooted) {temp : List Name}
    (hs : d₀.get? temp = none) (rest : List Name) (hr : rest ≠ []) :
    b.disk.get? (temp ++ rest) = none := by
  have hoff : ∀ p, ¬ d₀.Leads p (temp ++ rest) := by
    intro p hl
    obtain ⟨dir, n, hn, ⟨m, hd⟩, -⟩ := Disk.exists_parent hl rfl
    obtain ⟨init, last, rfl⟩ := (List.eq_nil_or_concat rest).resolve_left hr
    rw [List.concat_eq_append, ← List.append_assoc] at hn
    obtain ⟨rfl, -⟩ := List.append_inj' hn rfl
    by_cases hinit : init = []
    · rw [hinit, List.append_nil, hs] at hd
      cases hd
    · obtain ⟨m', hd'⟩ := hroot.dir_of_append temp init _ hinit hd
      rw [show d₀.system.get? temp = none from hs] at hd'
      cases hd'
  rw [h.other _ (fun p _ => hoff p) fun e he hp => ?_]
  · exact (hroot.vacant_of_none hs).empty rest hr
  · obtain ⟨temp', bytes, hold⟩ := h.holds e he
    obtain rfl := Option.some.inj ((hold.place h.back).symm.trans hp)
    exact hoff _ (h.back.leads hold.waits.leads)

theorem no_dir {d : Disk} (hd : d.KeepsDirs d₀) {p : Path}
    (hp : ∀ names m, d₀.stat p ≠ .ok (names, .dir m)) (names : List Name) (m : Nat) :
    d.stat p ≠ .ok (names, .dir m) := by
  intro hs
  obtain ⟨hl, hn, ha⟩ := (Disk.stat_eq_ok_iff d p names _).mp hs
  exact hp names m ((Disk.stat_eq_ok_iff d₀ p names _).mpr ⟨hd.locate p _ hl, hd.dir _ m hn, ha⟩)

/-- A place that is free now was spare from the beginning. -/
theorem spare_of_fresh (h : Kept d₀ targets deeds b) {temp : List Name}
    (hn : b.disk.get? temp = none) (ht : ∀ p ∈ targets, ¬ b.disk.Leads p temp) :
    Spare d₀ targets temp ∧ ∀ e ∈ b.handles, d₀.place? e.2.temp ≠ some temp := by
  have hheld : ∀ e ∈ b.handles, d₀.place? e.2.temp ≠ some temp := by
    intro e he hp
    obtain ⟨temp', bytes, hold⟩ := h.holds e he
    obtain rfl := Option.some.inj ((hold.place h.back).symm.trans hp)
    rw [hold.waits.file] at hn
    cases hn
  have ht' : ∀ p ∈ targets, ¬ d₀.Leads p temp := fun p hp hl => ht p hp (h.keeps.leads hl)
  exact ⟨⟨(h.other temp ht' hheld).symm.trans hn, ht'⟩, hheld⟩

theorem more (h : Kept d₀ targets deeds b) {name : Name} {target : Path} {bytes : Bytes}
    {s : Staged} {d' : Disk} (hs : Staged.stageAs name b.disk target bytes = .ok (s, d'))
    (hfresh : FileDeed.Fresh targets b.disk (.stage name target bytes)) :
    Kept d₀ targets (deeds ++ [.stage name target bytes])
      (b.step (.stage name target bytes)) := by
  have hfree := fun k => hfresh s.temp k (Staged.tempAt_of_stageAs hs)
  obtain ⟨htarget, hmode, temp, hl, hwaits, htouch⟩ :=
    Staged.waits_of_stageAs hs fun k hl => (hfree k hl).1
  obtain ⟨hspare, hheld⟩ := h.spare_of_fresh (hfree temp hl).1 (hfree temp hl).2
  have hkeeps := htouch.keepsDirs
  have hplace : d₀.place? s.temp = some temp := Disk.place?_of_leads (h.back.leads hl)
  have hstep : b.step (.stage name target bytes) =
      ⟨d', (b.count, s) :: b.handles, b.count + 1⟩ := by
    simp only [Bench.step, Bench.after, Bench.held, hs]
  have hrun : b.step (.stage name target bytes) =
      Bench.run d₀ (deeds ++ [.stage name target bytes]) :=
    (congrArg (Bench.step · _) h.run).trans (Bench.run_concat d₀ deeds _).symm
  rw [hstep] at hrun ⊢
  refine ⟨hrun, ?_, h.keeps.trans hkeeps, htouch.back.trans h.back, fun e he => ?_, ?_, ?_,
    fun k hk hh => ?_⟩
  · rw [List.length_append, List.length_singleton, ← h.count]
  · rcases List.mem_cons.mp he with rfl | he
    · refine ⟨temp, bytes, ⟨name, ?_⟩, ?_, hspare, hwaits⟩
      · rw [h.count, List.getElem?_concat_length, htarget]
      · rw [h.count, List.take_left, ← h.run, htarget]
        exact hmode
    · obtain ⟨temp', bytes', hold⟩ := h.holds e he
      have hne : temp' ∉ [temp] := fun hm =>
        hheld e he (List.mem_singleton.mp hm ▸ hold.place h.back)
      exact ⟨temp', bytes', hold.next _ hkeeps (htouch.other temp' hne)⟩
  · refine List.nodup_cons.mpr ⟨fun hm => ?_, h.numbers⟩
    obtain ⟨e, he, hnum⟩ := List.mem_map.mp hm
    obtain ⟨temp', bytes', hold⟩ := h.holds e he
    obtain ⟨name', hm'⟩ := hold.made
    obtain ⟨hlt, -⟩ := List.getElem?_eq_some_iff.mp hm'
    rw [hnum, h.count] at hlt
    exact Nat.lt_irrefl _ hlt
  · refine List.nodup_cons.mpr ⟨fun hm => ?_, h.apart⟩
    obtain ⟨e, he, hp⟩ := List.mem_map.mp hm
    exact hheld e he (hp.trans hplace)
  · have hne : k ∉ [temp] := fun hm => by
      rw [List.mem_singleton.mp hm] at hh
      exact hh _ List.mem_cons_self hplace
    rw [htouch.other k hne]
    exact h.other k hk fun e he => hh e (List.mem_cons_of_mem _ he)

/-- A deed that uses up a handle, whatever becomes of its target. -/
theorem use (h : Kept d₀ targets deeds b) (deed : FileDeed) {number : Nat} {s : Staged}
    (hmem : (number, s) ∈ b.handles) (hheld : b.held deed = b.handles.filter (·.1 ≠ number))
    {temp : List Name} {bytes : Bytes}
    (hold : Holds d₀ targets deeds b.disk number s temp bytes) {ks : List (List Name)}
    (htouch : b.disk.Touches (b.after deed) ks) (htemp : temp ∈ ks)
    (hgone : (b.after deed).get? temp = none)
    (hks : ∀ k ∈ ks, k = temp ∨ ∃ p ∈ targets, d₀.Leads p k) :
    Kept d₀ targets (deeds ++ [deed]) (b.step deed) := by
  refine h.less deed ks htouch (hheld ▸ List.filter_sublist) (fun k hk => ?_)
    fun e he hnot k hp => ?_
  · rcases hks k hk with rfl | ht
    · refine .inr ⟨hgone, hold.spare, fun e he hp => ?_⟩
      rw [hheld, List.mem_filter, decide_eq_true_eq] at he
      have hsame := List.inj_on_of_nodup_map h.apart he.1 hmem (hp.trans (hold.place h.back).symm)
      exact he.2 (congrArg Prod.fst hsame)
    · exact .inl ht
  · have hnum : e.1 = number := by
      rw [hheld, List.mem_filter, decide_eq_true_eq] at hnot
      exact Decidable.not_not.mp fun hne => hnot ⟨he, hne⟩
    obtain rfl := List.inj_on_of_nodup_map h.numbers he hmem hnum
    obtain rfl := Option.some.inj ((hold.place h.back).symm.trans hp)
    exact htemp

theorem keep (h : Kept d₀ targets deeds b) (deed : FileDeed) (hheld : b.held deed = b.handles)
    (ks : List (List Name)) (htouch : b.disk.Touches (b.after deed) ks)
    (hks : ∀ k ∈ ks, (∃ p ∈ targets, d₀.Leads p k) ∨
      (b.after deed).get? k = none ∧ Spare d₀ targets k ∧
        ∀ h ∈ b.handles, d₀.place? h.2.temp ≠ some k) :
    Kept d₀ targets (deeds ++ [deed]) (b.step deed) :=
  h.less deed ks htouch (hheld ▸ .refl _) (hheld.symm ▸ hks)
    fun _ he hnot => absurd (hheld.symm ▸ he) hnot

theorem idle (h : Kept d₀ targets deeds b) (deed : FileDeed) {number : Nat}
    (hnone : b.find? number = none) (hheld : b.held deed = b.handles.filter (·.1 ≠ number))
    (hafter : b.after deed = b.disk) : Kept d₀ targets (deeds ++ [deed]) (b.step deed) := by
  refine h.less deed [] (hafter ▸ .refl b.disk) (hheld ▸ List.filter_sublist) nofun
    fun e he hnot => ?_
  rw [hheld, List.mem_filter, decide_eq_true_eq] at hnot
  refine absurd ⟨he, fun hnum => ?_⟩ hnot
  have hfind := List.find?_eq_none.mp (Option.map_eq_none_iff.mp hnone) e he
  exact hfind (decide_eq_true hnum)

theorem mem_of_find? {number : Nat} {s : Staged} (hf : b.find? number = some s) :
    (number, s) ∈ b.handles := by
  obtain ⟨⟨n, s'⟩, hfind, rfl⟩ := Option.map_eq_some_iff.mp hf
  have hnum := List.find?_some hfind
  simp only [decide_eq_true_eq] at hnum
  subst hnum
  exact List.mem_of_find?_eq_some hfind

section
variable (h : Kept d₀ targets deeds b) (hroot : d₀.system.Rooted)
  (hfiles : ∀ p ∈ targets, ∀ names m, d₀.stat p ≠ .ok (names, .dir m))
include h hroot hfiles

theorem commit (htargets : ∀ e ∈ deeds, ∀ p ∈ e.target?, p ∈ targets) (number : Nat) :
    Kept d₀ targets (deeds ++ [.commit number]) (b.step (.commit number)) := by
  cases hf : b.find? number with
  | none => exact h.idle _ hf rfl (by simp only [Bench.after, hf])
  | some s =>
    have hmem := mem_of_find? hf
    obtain ⟨temp, bytes, hold⟩ := h.holds _ hmem
    have hmade := hold.target_mem htargets
    have hafter : b.after (.commit number) = (s.commit b.disk).2 := by simp only [Bench.after, hf]
    obtain ⟨ks, htouch, htemp, hgone, hks⟩ := Staged.commit_ends hold.waits
      (h.leaf hroot hold.spare.1) (no_dir h.back (hfiles _ hmade))
      fun hl => hold.spare.2 _ hmade (h.back.leads hl)
    exact h.use _ hmem rfl hold (hafter ▸ htouch) htemp (hafter ▸ hgone) fun k hk =>
      (hks k hk).imp_right fun hl => ⟨_, hmade, h.back.leads hl⟩

/-- Staged and committed at once, a fresh file comes and goes. -/
theorem replace {name : Name} {target : Path} {bytes : Bytes} (htarget : target ∈ targets)
    (hfresh : FileDeed.Fresh targets b.disk (.replace name target bytes)) :
    Kept d₀ targets (deeds ++ [.replace name target bytes])
      (b.step (.replace name target bytes)) := by
  cases hs : Staged.stageAs name b.disk target bytes with
  | error fault =>
    have hafter : b.after (.replace name target bytes) = b.disk := by simp only [Bench.after, hs]
    exact h.keep _ rfl [] (hafter ▸ .refl b.disk) nofun
  | ok r =>
    obtain ⟨s, d⟩ := r
    have hafter : b.after (.replace name target bytes) = (s.commit d).2 := by
      simp only [Bench.after, hs]
    have hfree := fun k => hfresh s.temp k (Staged.tempAt_of_stageAs hs)
    obtain ⟨rfl, -, temp, hl, hwaits, hstaged⟩ :=
      Staged.waits_of_stageAs hs fun k hl => (hfree k hl).1
    obtain ⟨hspare, hheld⟩ := h.spare_of_fresh (hfree temp hl).1 (hfree temp hl).2
    have hback : d.KeepsDirs d₀ := hstaged.back.trans h.back
    have hleaf : ∀ rest, rest ≠ [] → d.get? (temp ++ rest) = none := by
      intro rest hr
      have hne : temp ++ rest ∉ [temp] := fun hm =>
        hr (List.append_right_eq_self.mp (List.mem_singleton.mp hm))
      rw [hstaged.other _ hne, h.leaf hroot hspare.1 rest hr]
    obtain ⟨ks, htouch, -, hgone, hks⟩ := Staged.commit_ends hwaits hleaf
      (no_dir hback (hfiles _ htarget)) fun hl => hspare.2 _ htarget (hback.leads hl)
    refine h.keep _ rfl _ (hafter ▸ hstaged.trans htouch) fun k hk => ?_
    have hcases : k = temp ∨ d.Leads s.target k :=
      (List.mem_append.mp hk).elim (fun hk => .inl (List.mem_singleton.mp hk)) (hks k)
    rcases hcases with rfl | hl
    · exact .inr ⟨hafter ▸ hgone, hspare, hheld⟩
    · exact .inl ⟨_, htarget, hback.leads hl⟩

end

theorem drop (h : Kept d₀ targets deeds b) (number : Nat) :
    Kept d₀ targets (deeds ++ [.drop number]) (b.step (.drop number)) := by
  cases hf : b.find? number with
  | none => exact h.idle _ hf rfl (by simp only [Bench.after, hf])
  | some s =>
    have hmem := mem_of_find? hf
    obtain ⟨temp, bytes, hold⟩ := h.holds _ hmem
    have hafter : b.after (.drop number) = s.discard b.disk := by simp only [Bench.after, hf]
    refine h.use _ hmem rfl hold (hafter ▸ Staged.touches_discard hold.waits) List.mem_cons_self
      ?_ fun k hk => .inl (List.mem_singleton.mp hk)
    rw [hafter, hold.waits.get?_discard, if_pos rfl]

theorem outside (h : Kept d₀ targets deeds b) (deed : FileDeed) (hheld : b.held deed = b.handles)
    {r : Except IoError Disk} (hafter : b.after deed = r.toOption.getD b.disk) {target : Path}
    (htarget : target ∈ targets)
    (hr : ∀ d, r = .ok d → ∃ names, b.disk.Leads target names ∧ b.disk.Touches d [names]) :
    Kept d₀ targets (deeds ++ [deed]) (b.step deed) := by
  cases r with
  | error fault =>
    have hsame : b.after deed = b.disk := hafter
    exact h.keep _ hheld [] (hsame ▸ .refl b.disk) nofun
  | ok d =>
    replace hafter : b.after deed = d := hafter
    obtain ⟨names, hl, htouch⟩ := hr d rfl
    exact h.keep _ hheld [names] (hafter ▸ htouch) fun k hk =>
      .inl ⟨target, htarget, List.mem_singleton.mp hk ▸ h.back.leads hl⟩

/-- What was said of the handles and of the rest goes on. -/
theorem step (hroot : d₀.system.Rooted)
    (hfiles : ∀ p ∈ targets, ∀ names m, d₀.stat p ≠ .ok (names, .dir m))
    (h : Kept d₀ targets deeds b) (deed : FileDeed)
    (htargets : ∀ e ∈ deeds ++ [deed], ∀ p ∈ e.target?, p ∈ targets)
    (hfresh : deed.Fresh targets b.disk) : Kept d₀ targets (deeds ++ [deed]) (b.step deed) := by
  have htarget : ∀ p ∈ deed.target?, p ∈ targets := htargets deed List.mem_concat_self
  cases deed with
  | stage name target bytes =>
    cases hs : Staged.stageAs name b.disk target bytes with
    | ok r => exact h.more hs hfresh
    | error fault =>
      have hafter : b.after (.stage name target bytes) = b.disk := by simp only [Bench.after, hs]
      exact h.keep _ (by simp only [Bench.held, hs]) [] (hafter ▸ .refl b.disk) nofun
  | commit number =>
    exact h.commit hroot hfiles (fun e he => htargets e (List.mem_append_left _ he)) number
  | drop number => exact h.drop number
  | replace name target bytes => exact h.replace hroot hfiles (htarget _ rfl) hfresh
  | write target bytes mode =>
    refine h.outside _ rfl rfl (htarget _ rfl) fun d hd => ?_
    obtain ⟨names, hl, -, htouch⟩ := Disk.write_touches hd
    exact ⟨names, hl, htouch⟩
  | remove target => exact h.outside _ rfl rfl (htarget _ rfl) fun _ => Disk.unlink_touches

theorem stage_strays (h : Kept d₀ targets deeds b) {name : Name} {target : Path} {bytes : Bytes}
    (hfresh : FileDeed.Fresh targets b.disk (.stage name target bytes)) (k : List Name)
    (hk : (b.after (.stage name target bytes)).get? k ≠ b.disk.get? k) :
    k ∈ strays d₀ targets (b.after (.stage name target bytes)) := by
  cases hs : Staged.stageAs name b.disk target bytes with
  | error fault => simp only [Bench.after, hs, ne_eq, not_true_eq_false] at hk
  | ok r =>
    obtain ⟨s, d⟩ := r
    have hafter : b.after (.stage name target bytes) = d := by simp only [Bench.after, hs]
    rw [hafter] at hk ⊢
    have hfree := fun k => hfresh s.temp k (Staged.tempAt_of_stageAs hs)
    obtain ⟨-, -, temp, hl, hwaits, htouch⟩ := Staged.waits_of_stageAs hs fun k hl => (hfree k hl).1
    have hmem : k ∈ [temp] := Decidable.byContradiction fun hn => hk (htouch.other k hn)
    rw [List.mem_singleton.mp hmem]
    exact (mem_strays d₀ targets d temp).mpr
      ⟨(h.spare_of_fresh (hfree temp hl).1 (hfree temp hl).2).1, _, hwaits.file⟩

theorem drop_strays (h : Kept d₀ targets deeds b) (number : Nat) (k : List Name)
    (hk : (b.after (.drop number)).get? k ≠ b.disk.get? k) : k ∈ strays d₀ targets b.disk := by
  cases hf : b.find? number with
  | none => simp only [Bench.after, hf, ne_eq, not_true_eq_false] at hk
  | some s =>
    have hafter : b.after (.drop number) = s.discard b.disk := by simp only [Bench.after, hf]
    obtain ⟨temp, bytes, hold⟩ := h.holds _ (mem_of_find? hf)
    rw [hafter, hold.waits.get?_discard] at hk
    have hkt : k = temp := Decidable.byContradiction fun hn => hk (if_neg hn)
    rw [hkt]
    exact (mem_strays d₀ targets b.disk temp).mpr ⟨hold.spare, _, hold.waits.file⟩

/-- A commit that succeeds brings what its own stage was given. -/
theorem commit_own (h : Kept d₀ targets deeds b) (hroot : d₀.system.Rooted)
    (hfiles : ∀ p ∈ targets, ∀ names m, d₀.stat p ≠ .ok (names, .dir m))
    (htargets : ∀ e ∈ deeds, ∀ p ∈ e.target?, p ∈ targets) {number : Nat} {s : Staged}
    (hf : b.find? number = some s) (hok : (s.commit b.disk).1 = .ok ()) :
    ∃ name target bytes place temp, deeds[number]? = some (.stage name target bytes) ∧
      (b.after (.commit number)).stat target = .ok (place, .file bytes
        (((Bench.run d₀ (deeds.take number)).disk.mode? target).getD Staged.tempMode)) ∧
      b.disk.Leads s.temp temp ∧
      ∀ k, k ≠ place → k ≠ temp → (b.after (.commit number)).get? k = b.disk.get? k := by
  have hafter : b.after (.commit number) = (s.commit b.disk).2 := by simp only [Bench.after, hf]
  obtain ⟨temp, bytes, hold⟩ := h.holds _ (mem_of_find? hf)
  obtain ⟨name, hm⟩ := hold.made
  rcases Staged.touches_commit hold.waits (h.leaf hroot hold.spare.1)
      (no_dir h.back (hfiles _ (hold.target_mem htargets))) with
    ⟨place, done, hl, hc, hs, htouch, -⟩ | ⟨fault, hc⟩
  · rw [hc] at hafter
    rw [hafter]
    refine ⟨name, s.target, bytes, place, temp, hm, ?_, hold.waits.leads, fun k h1 h2 => ?_⟩
    · rw [← hold.mode]
      exact hs
    · refine htouch.other k fun hk => ?_
      rcases List.mem_cons.mp hk with e | hk
      · exact h2 e
      · exact h1 (List.mem_singleton.mp hk)
  · rw [hc] at hok
    cases hok

theorem strays_length (h : Kept d₀ targets deeds b) :
    (strays d₀ targets b.disk).length = b.handles.length := by
  have hperm : ((strays d₀ targets b.disk).map some).Perm
      (b.handles.map fun e => d₀.place? e.2.temp) := by
    have hnodup : ((strays d₀ targets b.disk).map some).Nodup :=
      (List.nodup_dedup _).map fun _ _ e => Option.some.inj e
    refine (List.perm_ext_iff_of_nodup hnodup h.apart).mpr fun k => ?_
    rw [List.mem_map, List.mem_map]
    constructor
    · rintro ⟨k, hk, rfl⟩
      obtain ⟨hs, node, hg⟩ := (mem_strays d₀ targets b.disk k).mp hk
      by_contra hnone
      have := h.other k hs.2 fun e he hp => hnone ⟨e, he, hp⟩
      rw [hg, hs.1] at this
      cases this
    · rintro ⟨e, he, rfl⟩
      obtain ⟨temp, bytes, hold⟩ := h.holds e he
      exact ⟨temp, (mem_strays d₀ targets b.disk temp).mpr ⟨hold.spare, _, hold.waits.file⟩,
        (hold.place h.back).symm⟩
  have := hperm.length_eq
  rwa [List.length_map, List.length_map] at this

end Kept

/-- Every fresh file of a run has a place of its own when it is made. -/
def FreshRun (targets : List Path) : Bench → List FileDeed → Prop
  | _, [] => True
  | b, deed :: deeds => deed.Fresh targets b.disk ∧ FreshRun targets (b.step deed) deeds

theorem Kept.steps (hroot : d₀.system.Rooted)
    (hfiles : ∀ p ∈ targets, ∀ names m, d₀.stat p ≠ .ok (names, .dir m)) {before : List FileDeed}
    (h : Kept d₀ targets before b) (deeds : List FileDeed)
    (htargets : ∀ e ∈ before ++ deeds, ∀ p ∈ e.target?, p ∈ targets)
    (hfresh : FreshRun targets b deeds) :
    Kept d₀ targets (before ++ deeds) (deeds.foldl Bench.step b) := by
  induction deeds generalizing before b with
  | nil => exact (List.append_nil before).symm ▸ h
  | cons deed deeds ih =>
    rw [← List.singleton_append, ← List.append_assoc] at htargets ⊢
    refine ih (h.step hroot hfiles deed (fun e he => htargets e ?_) hfresh.1) htargets hfresh.2
    exact List.mem_append_left _ he

theorem FreshRun.concat {deed : FileDeed} (h : FreshRun targets b (deeds ++ [deed])) :
    FreshRun targets b deeds ∧ deed.Fresh targets (deeds.foldl Bench.step b).disk := by
  induction deeds generalizing b with
  | nil => exact ⟨trivial, h.1⟩
  | cons e deeds ih => exact ⟨⟨h.1, (ih h.2).1⟩, (ih h.2).2⟩

end

/-! ## isolation -/

/-- What can be seen of a deed after others. -/
structure Isolated (d₀ : Disk) (targets : List Path) (before : List FileDeed) (deed : FileDeed)
    (b : Bench) : Prop where
  /-- staging makes a fresh file -/
  stage : ∀ name target bytes, deed = .stage name target bytes → ∀ k,
    (b.after deed).get? k ≠ b.disk.get? k → k ∈ strays d₀ targets (b.after deed)
  /-- dropping takes one away -/
  drop : ∀ number, deed = .drop number → ∀ k,
    (b.after deed).get? k ≠ b.disk.get? k → k ∈ strays d₀ targets b.disk
  /-- a commit brings the contents of its own stage and the mode of that moment to its target, and
  uses up its own handle and fresh file -/
  commit : ∀ number s, deed = .commit number → b.find? number = some s →
    (s.commit b.disk).1 = .ok () →
    ∃ name target bytes place temp, before[number]? = some (.stage name target bytes) ∧
      (b.after deed).stat target = .ok (place, .file bytes
        (((Bench.run d₀ (before.take number)).disk.mode? target).getD Staged.tempMode)) ∧
      b.disk.Leads s.temp temp ∧
      (∀ k, k ≠ place → k ≠ temp → (b.after deed).get? k = b.disk.get? k) ∧
      b.held deed = b.handles.filter (·.1 ≠ number)
  /-- there are as many fresh files as handles -/
  count : (strays d₀ targets (b.after deed)).length = (b.held deed).length

/-- Nothing is seen of a staged file before its commit, and nothing is left of it after. -/
theorem Bench.isolated (d₀ : Disk) (targets : List Path) (before : List FileDeed) (deed : FileDeed)
    (hroot : d₀.system.Rooted)
    (hfiles : ∀ p ∈ targets, ∀ names m, d₀.stat p ≠ .ok (names, .dir m))
    (htargets : ∀ e ∈ before ++ [deed], ∀ p ∈ e.target?, p ∈ targets)
    (hfresh : FreshRun targets ⟨d₀, [], 0⟩ (before ++ [deed])) :
    Isolated d₀ targets before deed (Bench.run d₀ before) := by
  obtain ⟨hbefore, hdeed⟩ := hfresh.concat
  have hkept : Kept d₀ targets before (Bench.run d₀ before) :=
    (Kept.init d₀ targets).steps hroot hfiles before
      (fun e he => htargets e (List.mem_append_left _ he)) hbefore
  have hnext := hkept.step hroot hfiles deed htargets hdeed
  refine ⟨?_, ?_, ?_, hnext.strays_length⟩
  · rintro name target bytes rfl k hk
    exact hkept.stage_strays hdeed k hk
  · rintro number rfl k hk
    exact hkept.drop_strays number k hk
  · rintro number s rfl hf hok
    obtain ⟨name, target, bytes, place, temp, hm, hs, hl, ho⟩ := hkept.commit_own hroot hfiles
      (fun e he => htargets e (List.mem_append_left _ he)) hf hok
    exact ⟨name, target, bytes, place, temp, hm, hs, hl, ho, rfl⟩

def oneFile : Disk where
  system := ⟨[([Utf8.ofString "f"], .file (Utf8.ofString "x") 0o755)]⟩
  cwd := some []

def twice : List FileDeed :=
  [.stage (Utf8.ofString ".tmp1") ⟨Utf8.ofString "/f"⟩ (Utf8.ofString "a"),
    .stage (Utf8.ofString ".tmp2") ⟨Utf8.ofString "/f"⟩ (Utf8.ofString "b"),
    .write ⟨Utf8.ofString "/f"⟩ (Utf8.ofString "z") 0o644]

theorem Bench.isolated_twice :
    (∃ place, ((Bench.run oneFile twice).after (.commit 0)).stat ⟨Utf8.ofString "/f"⟩ =
        .ok (place, .file (Utf8.ofString "a") 0o755)) ∧
      (strays oneFile [⟨Utf8.ofString "/f"⟩] ((Bench.run oneFile twice).after (.commit 0))).length =
        1 := by
  have hroot : oneFile.system.Rooted := by decide
  have hstat : oneFile.stat ⟨Utf8.ofString "/f"⟩ =
      .ok ([Utf8.ofString "f"], .file (Utf8.ofString "x") 0o755) := by cbv
  have hfiles : ∀ p ∈ [(⟨Utf8.ofString "/f"⟩ : Path)], ∀ names m,
      oneFile.stat p ≠ .ok (names, .dir m) := by
    intro p hp names m h
    rw [List.mem_singleton.mp hp, hstat] at h
    cases h
  have hstage : ∀ (d : Disk) (name : Name) (target : Path) (bytes : Bytes) (temp : Path)
      (k : List Name), Staged.tempAt name d target = .ok temp → d.Leads temp k →
      d.get? k = none → (∀ p ∈ [(⟨Utf8.ofString "/f"⟩ : Path)], ¬ d.Leads p k) →
      FileDeed.Fresh [⟨Utf8.ofString "/f"⟩] d (.stage name target bytes) := by
    intro d name target bytes temp k ht hl hn hp temp' k' ht' hl'
    obtain rfl := Except.ok.inj (ht.symm.trans ht')
    obtain rfl := congrArg Place.names (Except.ok.inj (hl.symm.trans hl'))
    exact ⟨hn, hp⟩
  have hfresh : FreshRun [⟨Utf8.ofString "/f"⟩] ⟨oneFile, [], 0⟩ (twice ++ [.commit 0]) := by
    refine ⟨hstage _ _ _ _ ⟨Utf8.ofString "/.tmp1"⟩ [Utf8.ofString ".tmp1"] ?_ ?_ ?_ ?_,
      hstage _ _ _ _ ⟨Utf8.ofString "/.tmp2"⟩ [Utf8.ofString ".tmp2"] ?_ ?_ ?_ ?_,
      trivial, trivial, trivial⟩
    · cbv
    · cbv
    · cbv
    · decide
    · cbv
    · cbv
    · cbv
    · decide
  have h := Bench.isolated oneFile [⟨Utf8.ofString "/f"⟩] twice (.commit 0) hroot hfiles
    (by decide) hfresh
  have hfind : (Bench.run oneFile twice).find? 0 =
      some ⟨⟨Utf8.ofString "/.tmp1"⟩, ⟨Utf8.ofString "/f"⟩, some 0o755⟩ := by cbv
  have hok : ((⟨⟨Utf8.ofString "/.tmp1"⟩, ⟨Utf8.ofString "/f"⟩, some 0o755⟩ : Staged).commit
      (Bench.run oneFile twice).disk).1 = .ok () := by cbv
  have hmode : ((Bench.run oneFile (twice.take 0)).disk.mode? ⟨Utf8.ofString "/f"⟩).getD
      Staged.tempMode = 0o755 := by cbv
  have hheld : ((Bench.run oneFile twice).held (.commit 0)).length = 1 := by cbv
  obtain ⟨name, target, bytes, place, temp, hm, hs, -⟩ := h.commit 0 _ rfl hfind hok
  obtain ⟨-, rfl, rfl⟩ := FileDeed.stage.inj (Option.some.inj hm)
  rw [hmode] at hs
  exact ⟨⟨place, hs⟩, h.count.trans hheld⟩

end CodeBridge
