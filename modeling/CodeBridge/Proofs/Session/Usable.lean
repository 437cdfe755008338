import CodeBridge.Proofs.Session.Runs

/-!
# What a start that ends well leaves behind

A start looks after clients that have greeted no server yet, and leaves all others as they are.  So
the client that the session hands out then has greeted its server, unless somebody has left that
server without asking the session.

* `Call.handed?`   the client that the session hands out right after a call;
* `usable_run`   what every start that ends well leaves in the slot;
* `not_usable_run`   it need not be a client that can still be used.
-/

namespace CodeBridge

namespace Office

/-- The client that the session hands out when a call has come to its end, and how far that client
is then. -/
def Call.handed? (k : Call) : Option (Nat × Lifecycle) :=
  k.last?.bind fun left =>
    (Session.clientOfSlot left.slot).toOption.map fun c => (c, (left.clientAt c).lifecycle)

section
variable {o : Office} {g : Notes} (h : Good o g)
include h

theorem Good.usable {k : Call} (hk : k ∈ o.calls) (hstarted : k.started = true) :
    ∃ c life, k.handed? = some (c, life) ∧
      (life = .initialized ∨ life = .shutDown ∧ ∃ k' ∈ o.calls, k'.deed.leaves c = true) := by
  obtain ⟨i, hi⟩ := List.getElem?_of_mem hk
  obtain ⟨hdeed, hresult⟩ := Bool.and_eq_true_iff.mp hstarted
  obtain ⟨result, x, -, left, e, hsame, hlast, -, -, -, hshows⟩ :=
    h.start_ended hi (of_decide_eq_true hdeed) (of_decide_eq_true hresult)
  obtain rfl := Outcome.plain.inj hsame
  cases x with
  | ready c here =>
    obtain ⟨-, -, hslot, hbegun, hdirect⟩ := hshows
    have hhanded : k.handed? = some (c, (left.clientAt c).lifecycle) := by
      unfold Call.handed?
      rw [hlast, Option.bind_some, hslot]
      rfl
    refine ⟨c, _, hhanded, ?_⟩
    cases hlife : (left.clientAt c).lifecycle with
    | uninitialized => exact absurd hlife hbegun
    | initialized => exact .inl rfl
    | shutDown => exact .inr ⟨rfl, h.direct (hdirect hlife)⟩
  -- no other end is a good one
  | stopped => cases hshows.1
  | unmade => obtain ⟨-, fault, hfault, -⟩ := hshows; cases hfault
  | seenOff c => obtain ⟨-, ⟨fault, hfault⟩, -⟩ := hshows; cases hfault

end

/-- Whatever has been done to a session and to its clients directly, a start that ends well leaves a
client in the slot that has greeted its server; that server may only have been left since by a
shutdown or a termination that was asked of the client itself. -/
theorem usable_run {host : Host} (hfresh : Fresh host) (events : List Event) :
    let o := ({ host := host } : Office).run events
    ∀ k ∈ o.calls, k.started = true → ∃ c life, k.handed? = some (c, life) ∧
      (life = .initialized ∨ life = .shutDown ∧ ∃ k' ∈ o.calls, k'.deed.leaves c = true) := by
  intro o k hk hstarted
  obtain ⟨g, hgood⟩ := good_reach hfresh events
  exact hgood.usable hk hstarted

/-- A session that has been given a client which has greeted nobody yet. -/
def given : Host where
  disk := { system := ⟨[]⟩, cwd := none }
  root := .ofString "/"
  slot := .running 0
  clients := [{}]

theorem fresh_given : Fresh given := fresh_single rfl rfl rfl rfl rfl nofun

def greeting : List Event :=
  .begin .start :: moves 20 0 ++
    [.around 0 (.deliver (Frame.write (.obj [("id", .ofUInt32 1), ("result", .obj [])]))),
      .around 0 .read] ++ moves 20 0

theorem greeting_usable :
    let o := ({ host := given } : Office).run greeting
    Fresh given ∧ ∃ k ∈ o.calls, k.started = true ∧ k.handed? = some (0, .initialized) ∧
      ∃ c life, k.handed? = some (c, life) ∧
        (life = .initialized ∨ life = .shutDown ∧ ∃ k' ∈ o.calls, k'.deed.leaves c = true) := by
  intro o
  have hany : (o.calls.any fun k => k.started && k.handed? = some (0, .initialized)) = true := by
    decide +kernel
  obtain ⟨k, hk, hboth⟩ := List.any_eq_true.mp hany
  obtain ⟨hstarted, hhanded⟩ := Bool.and_eq_true_iff.mp hboth
  exact ⟨fresh_given, k, hk, hstarted, of_decide_eq_true hhanded,
    usable_run fresh_given greeting k hk hstarted⟩

/-- The client in the slot is terminated before the session is started. -/
def leftFirst : List Event :=
  .begin (.terminate 0) :: moves 4 0 ++ .go 0 100000 :: moves 4 0 ++ .begin .start :: moves 10 1

/-- A start takes a client that has been left for one that is ready. -/
theorem not_usable_run :
    ¬ ∀ host : Host, Fresh host → ∀ events : List Event,
      ∀ k ∈ (({ host := host } : Office).run events).calls, k.started = true →
        ∃ c, k.handed? = some (c, .initialized) := by
  intro hall
  let o := ({ host := given } : Office).run leftFirst
  have hany : (o.calls.any fun k => k.started && k.handed? = some (0, .shutDown)) = true := by
    decide +kernel
  obtain ⟨k, hk, hboth⟩ := List.any_eq_true.mp hany
  obtain ⟨hstarted, hhanded⟩ := Bool.and_eq_true_iff.mp hboth
  obtain ⟨c, hready⟩ := hall given fresh_given leftFirst k hk hstarted
  have hlife := congrArg (·.map (·.2)) (hready.symm.trans (of_decide_eq_true hhanded))
  cases hlife

end Office

end CodeBridge
