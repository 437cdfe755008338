import Mathlib.Data.List.TakeWhile
import CodeBridge.Proofs.Client.Holders
import CodeBridge.Proofs.Session.Office

/-!
# What the users of a session agree on

What is so at every moment of the locks, the slot, the clients' lifecycles and their documents, and
what each call may rely on while the others move.

* `Queued`, `Lines`   the lines of the locks, and who has which ticket;
* `Slotted`    the slot, the lifecycles, and who may shut down which client;
* `Papers`     the documents that are held, and by whom;
* `Asking`     who may still ask a server to shut down;
* `Sound`      all of it; `Secure`, `Kept`, `Noted`, `May` and `pact` are what the calls agree on.
-/

namespace CodeBridge

/-! ## shared locks -/

namespace SharedLock

theorem holds_iff (l : SharedLock) (n : Nat) : l.holds n = true ↔
    (∃ b rest, l.line = (n, b) :: rest) ∨
      ∃ before rest, l.line = before ++ (n, true) :: rest ∧ ∀ t ∈ before, t.2 = true := by
  unfold holds
  rw [Bool.or_eq_true, Option.any_eq_true, List.any_eq_true]
  refine or_congr ⟨?_, ?_⟩ ⟨?_, ?_⟩
  · rintro ⟨⟨m, b⟩, hhead, hm⟩
    obtain rfl : m = n := of_decide_eq_true hm
    exact ⟨b, List.head?_eq_some_iff.mp hhead⟩
  · rintro ⟨b, rest, hl⟩
    exact ⟨(n, b), by rw [hl]; rfl, decide_eq_true rfl⟩
  · rintro ⟨⟨m, b⟩, hmem, hm⟩
    obtain rfl : m = n := of_decide_eq_true hm
    obtain rfl : b = true := List.mem_takeWhile_imp hmem
    obtain ⟨before, after, hb⟩ := List.append_of_mem hmem
    refine ⟨before, after ++ l.line.dropWhile (·.2), ?_, fun t ht => ?_⟩
    · have hsplit := List.takeWhile_append_dropWhile (p := fun t : Nat × Bool => t.2) (l := l.line)
      rw [hb, List.append_assoc, List.cons_append] at hsplit
      exact hsplit.symm
    · have ht' : t ∈ l.line.takeWhile (·.2) := hb ▸ List.mem_append_left _ ht
      exact List.mem_takeWhile_imp ht'
  · rintro ⟨before, rest, hl, hb⟩
    refine ⟨(n, true), ?_, decide_eq_true rfl⟩
    rw [hl, List.takeWhile_append_of_pos fun t ht => hb t ht]
    exact List.mem_append_right _ (List.mem_cons_self ..)

theorem holds_join (l : SharedLock) (b : Bool) (n : Nat) (h : l.holds n = true) :
    (l.join b).2.holds n = true := by
  rcases (holds_iff l n).mp h with ⟨b', rest, hl⟩ | ⟨before, rest, hl, hb⟩
  · exact (holds_iff _ n).mpr (.inl ⟨b', rest ++ [(l.issued, b)], congrArg (· ++ _) hl⟩)
  · refine (holds_iff _ n).mpr (.inr ⟨before, rest ++ [(l.issued, b)], ?_, hb⟩)
    show l.line ++ _ = _
    rw [hl, List.append_assoc]
    rfl

theorem holds_leave (l : SharedLock) (n ticket : Nat) (hne : n ≠ ticket) (h : l.holds n = true) :
    (l.leave ticket).holds n = true := by
  have hkeep (b : Bool) : decide ((n, b).1 ≠ ticket) = true := decide_eq_true hne
  rcases (holds_iff l n).mp h with ⟨b, rest, hl⟩ | ⟨before, rest, hl, hb⟩
  · refine (holds_iff _ n).mpr (.inl ⟨b, rest.filter fun t => t.1 ≠ ticket, ?_⟩)
    show l.line.filter _ = _
    rw [hl]
    exact List.filter_cons_of_pos (hkeep b)
  · refine (holds_iff _ n).mpr (.inr ⟨before.filter fun t => t.1 ≠ ticket,
      rest.filter fun t => t.1 ≠ ticket, ?_, fun t ht => hb t (List.mem_of_mem_filter ht)⟩)
    show l.line.filter _ = _
    rw [hl, List.filter_append]
    exact congrArg _ (List.filter_cons_of_pos (hkeep true))

theorem holds_alone {l : SharedLock} {m n : Nat} (hkind : ∀ t ∈ l.line, t.1 = n → t.2 = false)
    (hn : l.holds n = true) (hm : l.holds m = true) : m = n := by
  rcases (holds_iff l n).mp hn with ⟨b, rest, hl⟩ | ⟨before, rest, hl, -⟩
  · obtain rfl : b = false := hkind (n, b) (hl ▸ List.mem_cons_self ..) rfl
    rcases (holds_iff l m).mp hm with ⟨b', rest', hl'⟩ | ⟨before, rest', hl', hb⟩
    · exact congrArg Prod.fst (List.cons.inj (hl'.symm.trans hl)).1
    · cases before with
      | nil => exact nomatch congrArg Prod.snd (List.cons.inj (hl'.symm.trans hl)).1
      | cons t before =>
        have ht : t = (n, false) := (List.cons.inj (hl'.symm.trans hl)).1
        have hreads := hb t (List.mem_cons_self ..)
        rw [ht] at hreads
        cases hreads
  · have hmem : (n, true) ∈ l.line := hl ▸ List.mem_append_right _ (List.mem_cons_self ..)
    exact nomatch hkind _ hmem rfl

end SharedLock

namespace Office

/-! ## lines -/

theorem map_set_same {α β : Type} {f : α → β} {xs : List α} {i : Nat} {x y : α}
    (hx : xs[i]? = some x) (h : f y = f x) : (xs.set i y).map f = xs.map f := by
  rw [List.map_set, h]
  refine List.ext_getElem? fun j => ?_
  by_cases hj : i = j
  · subst hj
    rw [List.getElem?_set_self', List.getElem?_map, hx]
    rfl
  · rw [List.getElem?_set_ne hj]

/-- The tickets in the line of a lock, and those that somebody has. -/
structure Queued (issued : Nat) (line : List Nat) (tickets : List (Option Nat)) : Prop where
  line_lt : ∀ n ∈ line, n < issued
  ticket_lt : ∀ n, some n ∈ tickets → n < issued
  unique : ∀ (i j : Nat) n, tickets[i]? = some (some n) → tickets[j]? = some (some n) → i = j

namespace Queued
variable {issued : Nat} {line : List Nat} {tickets : List (Option Nat)}

theorem join (h : Queued issued line tickets) (i : Nat) :
    Queued (issued + 1) (line ++ [issued]) (tickets.set i (some issued)) where
  line_lt n hn := by
    rcases List.mem_append.mp hn with hn | hn
    · exact Nat.lt_succ_of_lt (h.line_lt n hn)
    · rw [List.mem_singleton.mp hn]
      exact Nat.lt_succ_self issued
  ticket_lt n hn := by
    rcases List.mem_or_eq_of_mem_set hn with hn | hn
    · exact Nat.lt_succ_of_lt (h.ticket_lt n hn)
    · rw [Option.some.inj hn]
      exact Nat.lt_succ_self issued
  unique j k n hj hk := by
    have hother {m : Nat} (hm : i ≠ m) (hget : (tickets.set i (some issued))[m]? = some (some n)) :
        tickets[m]? = some (some n) ∧ n ≠ issued := by
      rw [List.getElem?_set_ne hm] at hget
      exact ⟨hget, Nat.ne_of_lt (h.ticket_lt n (List.mem_of_getElem? hget))⟩
    have hown {m : Nat} (hm : i = m) (hget : (tickets.set i (some issued))[m]? = some (some n)) :
        n = issued := by
      subst hm
      rw [List.getElem?_set_self'] at hget
      cases ht : tickets[i]? with
      | none => rw [ht] at hget; cases hget
      | some t => rw [ht] at hget; exact (Option.some.inj (Option.some.inj hget)).symm
    by_cases hij : i = j
    · by_cases hik : i = k
      · exact hij.symm.trans hik
      · exact absurd (hown hij hj) (hother hik hk).2
    · by_cases hik : i = k
      · exact absurd (hown hik hk) (hother hij hj).2
      · exact h.unique j k n (hother hij hj).1 (hother hik hk).1

theorem leave (h : Queued issued line tickets) (i : Nat) (keep : Nat → Bool) :
    Queued issued (line.filter keep) (tickets.set i none) where
  line_lt n hn := h.line_lt n (List.mem_of_mem_filter hn)
  ticket_lt n hn := h.ticket_lt n ((List.mem_or_eq_of_mem_set hn).resolve_right nofun)
  unique j k n hj hk := by
    have hother {m : Nat} (hget : (tickets.set i none)[m]? = some (some n)) :
        tickets[m]? = some (some n) := by
      by_cases hm : i = m
      · subst hm
        rw [List.getElem?_set_self'] at hget
        cases ht : tickets[i]? with
        | none => rw [ht] at hget; cases hget
        | some t => rw [ht] at hget; cases hget
      · rwa [List.getElem?_set_ne hm] at hget
    exact h.unique j k n (hother hj) (hother hk)

theorem concat (h : Queued issued line tickets) : Queued issued line (tickets ++ [none]) where
  line_lt := h.line_lt
  ticket_lt n hn := by
    rcases List.mem_append.mp hn with hn | hn
    · exact h.ticket_lt n hn
    · cases List.mem_singleton.mp hn
  unique j k n hj hk :=
    have hother {m : Nat} (hget : (tickets ++ [none])[m]? = some (some n)) :
        tickets[m]? = some (some n) :=
      (Desk.getElem?_concat hget).resolve_right fun hlast => nomatch hlast.2
    h.unique j k n (hother hj) (hother hk)

end Queued

/-- The ticket of a place for the lock of one client. -/
def ticketAt (k : Nat) : Option (Nat × Nat) → Option Nat
  | some (c, n) => if c = k then some n else none
  | none => none

/-- The lock of the slot, the locks of the clients, and the tickets that calls have for them. -/
structure Lines (lock : SharedLock) (locks : Nat → Lock) (seats : List (Option (Nat × Bool)))
    (places : List (Option (Nat × Nat))) : Prop where
  slot : Queued lock.issued (lock.line.map (·.1)) (seats.map (·.map (·.1)))
  kinds : ∀ n b, some (n, b) ∈ seats → ∀ t ∈ lock.line, t.1 = n → t.2 = b
  client : ∀ k, Queued (locks k).issued (locks k).line (places.map (ticketAt k))

namespace Lines
variable {lock : SharedLock} {locks : Nat → Lock} {seats : List (Option (Nat × Bool))}
  {places : List (Option (Nat × Nat))}

theorem joinSlot (h : Lines lock locks seats places) (i : Nat) (b : Bool) :
    Lines (lock.join b).2 locks (seats.set i (some (lock.issued, b))) places where
  slot := by
    have hjoin := h.slot.join i
    rw [← List.map_singleton (f := fun t : Nat × Bool => t.1) (a := (lock.issued, b)),
      ← List.map_append] at hjoin
    rw [List.map_set]
    exact hjoin
  kinds n b' hmem t ht hn := by
    have hline (t : Nat × Bool) (ht : t ∈ lock.line) : t.1 < lock.issued :=
      h.slot.line_lt _ (List.mem_map_of_mem ht)
    rcases List.mem_or_eq_of_mem_set hmem with hold | hnew
    · have hlt : n < lock.issued := h.slot.ticket_lt n (List.mem_map.mpr ⟨_, hold, rfl⟩)
      rcases List.mem_append.mp ht with ht | ht
      · exact h.kinds n b' hold t ht hn
      · rw [List.mem_singleton.mp ht] at hn
        exact absurd hn.symm (Nat.ne_of_lt hlt)
    · obtain ⟨rfl, rfl⟩ := Prod.mk.inj (Option.some.inj hnew)
      rcases List.mem_append.mp ht with ht | ht
      · exact absurd hn (Nat.ne_of_lt (hline t ht))
      · rw [List.mem_singleton.mp ht]
  client := h.client

theorem leaveSlot (h : Lines lock locks seats places) (i n : Nat) :
    Lines (lock.leave n) locks (seats.set i none) places where
  slot := by
    have hleave := h.slot.leave i fun m => m ≠ n
    rw [List.filter_map] at hleave
    rw [List.map_set]
    exact hleave
  kinds m b hmem t ht hm :=
    h.kinds m b ((List.mem_or_eq_of_mem_set hmem).resolve_right nofun) t
      (List.mem_of_mem_filter ht) hm
  client := h.client

theorem joinClient (h : Lines lock locks seats places) (i k : Nat) :
    Lines lock (Function.update locks k (locks k).join.2) seats
      (places.set i (some (k, (locks k).issued))) where
  slot := h.slot
  kinds := h.kinds
  client c := by
    rw [List.map_set]
    by_cases hc : c = k
    · subst hc
      rw [Function.update_self]
      simp only [ticketAt, if_true]
      exact (h.client c).join i
    · rw [Function.update_of_ne hc]
      have hleave := (h.client c).leave i fun _ => true
      rw [List.filter_true] at hleave
      simpa only [ticketAt, if_neg (Ne.symm hc)] using hleave

theorem leaveClient (h : Lines lock locks seats places) (i k n : Nat) :
    Lines lock (Function.update locks k ((locks k).leave n)) seats (places.set i none) where
  slot := h.slot
  kinds := h.kinds
  client c := by
    rw [List.map_set]
    by_cases hc : c = k
    · subst hc
      rw [Function.update_self]
      exact (h.client c).leave i _
    · rw [Function.update_of_ne hc]
      have hleave := (h.client c).leave i fun _ => true
      rwa [List.filter_true] at hleave

theorem concat (h : Lines lock locks seats places) :
    Lines lock locks (seats ++ [none]) (places ++ [none]) where
  slot := by
    rw [List.map_append]
    exact h.slot.concat
  kinds n b hmem := by
    rcases List.mem_append.mp hmem with hmem | hmem
    · exact h.kinds n b hmem
    · cases List.mem_singleton.mp hmem
  client k := by
    rw [List.map_append]
    exact (h.client k).concat

end Lines

/-! ## notes -/

inductive Grip where
  | fresh
  /-- the server has been told of it -/
  | told
  | holds (client : Nat) (uri : String)
  | released (client : Nat) (uri : String)
  deriving DecidableEq

structure Standing where
  deed : Deed
  late : Bool := false
  again : Bool := false
  /-- its ticket for the slot, and whether that is for reading -/
  seat : Option (Nat × Bool) := none
  /-- it has begun to see off a client that may be in the slot -/
  leaving : Bool := false
  /-- it has started the session -/
  won : Bool := false

structure Entry extends Standing where
  /-- a client, and its ticket for the client's lock -/
  place : Option (Nat × Nat) := none
  grip : Grip := .fresh
  /-- the client that it has added -/
  added : Option Nat := none
  /-- the client that it makes ready -/
  ward : Option Nat := none
  /-- the client whose handshake it has completed -/
  greeted : Option Nat := none
  /-- a client that it may ask to shut down -/
  parting : Option Nat := none
  /-- the host as it has left it -/
  view : Option Host := none

structure Notes where
  entries : List Entry := []
  /-- clients that the session itself has begun to leave -/
  gone : List Nat := []
  /-- how often each server has been asked to shut down -/
  asked : Nat → Nat := fun _ => 0

abbrev World := Host × Notes

def Notes.put (i : Nat) (e : Entry) (g : Notes) : Notes := { g with entries := g.entries.set i e }

/-- What all the agreement is about. -/
structure Board where
  slot : Slot
  slotLock : SharedLock
  count : Nat
  locks : Nat → Lock
  docs : Nat → List (String × Nat)
  life : Nat → Lifecycle

def board (h : Host) : Board where
  slot := h.slot
  slotLock := h.slotLock
  count := h.clients.length
  locks k := (h.clientAt k).lock
  docs k := (h.clientAt k).openDocs
  life k := (h.clientAt k).lifecycle

def Started (ss : List Standing) : Prop := ∃ s ∈ ss, s.won = true

def Direct (k : Nat) (ss : List Standing) : Prop := ∃ s ∈ ss, s.deed.leaves k = true

/-- A session that has been started has a client that was made ready, or has been stopped. -/
def Usable (b : Board) : Prop :=
  b.slot = .stopped ∨ ∃ k, b.slot = .running k ∧ b.life k ≠ .uninitialized

/-! ## what is so at every moment -/

structure Slotted (b : Board) (gone : List Nat) (ss : List Standing) : Prop where
  inside : ∀ k, b.slot = .running k → k < b.count
  known : ∀ k ∈ gone, k < b.count
  started : Started ss → Usable b
  left : ∀ k, b.life k = .shutDown → k ∈ gone ∨ Direct k ss
  leaver : ∀ k, b.slot = .running k → k ∈ gone → ∃ (i : Nat) (s : Standing) (n : Nat),
    ss[i]? = some s ∧ s.leaving = true ∧ s.seat = some (n, false) ∧ b.slotLock.holds n = true
  late : ∀ s ∈ ss, s.late = true → b.slot = .stopped
  again : ∀ s ∈ ss, s.again = true → Started ss

def countIn (docs : List (String × Nat)) (uri : String) : Nat :=
  ((docs.find? fun d => d.1 = uri).map (·.2)).getD 0

structure Papers (docs : Nat → List (String × Nat)) (life : Nat → Lifecycle) (grips : List Grip) :
    Prop where
  counts : ∀ k, ∀ doc ∈ docs k, 1 ≤ doc.2
  keys : ∀ k, ((docs k).map (·.1)).Nodup
  emptied : ∀ k, life k = .shutDown → docs k = []
  ledger : ∀ k, life k ≠ .shutDown → ∀ uri, countIn (docs k) uri = grips.count (.holds k uri)

/-- A server is asked to shut down at most once, and only when the client is left. -/
def Asking (life : Nat → Lifecycle) (asked : Nat → Nat) (partings : List (Option Nat)) : Prop :=
  ∀ k, asked k + partings.count (some k) ≤ if life k = .shutDown then 1 else 0

structure Sound (b : Board) (g : Notes) : Prop where
  lines : Lines b.slotLock b.locks (g.entries.map (·.seat)) (g.entries.map (·.place))
  slotted : Slotted b g.gone (g.entries.map (·.toStanding))
  papers : Papers b.docs b.life (g.entries.map (·.grip))
  asking : Asking b.life g.asked (g.entries.map (·.parting))

/-! ## what a call is left -/

def standings (w : World) : List Standing := w.2.entries.map (·.toStanding)

/-- What does not go away at a host. -/
structure Onward (h h' : Host) : Prop where
  count : h.clients.length ≤ h'.clients.length
  stopped : h.slot = .stopped → h'.slot = .stopped
  life : ∀ k, (h.clientAt k).lifecycle.rank ≤ (h'.clientAt k).lifecycle.rank
  closed : ∀ k, (h.clientAt k).connection.closed = true → (h'.clientAt k).connection.closed = true

structure Lasting (w w' : World) : Prop extends Onward w.1 w'.1 where
  started : Started (standings w) → Started (standings w')
  direct : ∀ k, Direct k (standings w) → Direct k (standings w')
  gone : ∀ k ∈ w.2.gone, k ∈ w'.2.gone

/-- What nobody changes without the slot. -/
structure SlotKept (w w' : World) : Prop where
  slot : w'.1.slot = w.1.slot
  gone : w'.2.gone = w.2.gone
  started : Started (standings w') → Started (standings w)

/-- What nobody changes without the lock of a client. -/
structure ClientKept (k : Nat) (w w' : World) : Prop where
  docs : (w'.1.clientAt k).openDocs = (w.1.clientAt k).openDocs
  life : (w'.1.clientAt k).lifecycle = (w.1.clientAt k).lifecycle

/-- What a call with this entry may rely on. -/
structure Secure (e : Entry) (w w' : World) : Prop where
  seat : ∀ n b, e.seat = some (n, b) → w.1.slotLock.holds n = true →
    w'.1.slotLock.holds n = true ∧ SlotKept w w'
  place : ∀ k n, e.place = some (k, n) → (w.1.clientAt k).lock.holds n = true →
    (w'.1.clientAt k).lock.holds n = true ∧ ClientKept k w w'
  lasting : Lasting w w'

structure Kept (i : Nat) (w w' : World) : Prop where
  entry : ∀ e, w.2.entries[i]? = some e → w'.2.entries[i]? = some e
  secure : ∀ e, w.2.entries[i]? = some e → Secure e w w'

/-! ## what a call may do -/

/-- A change leaves it as it is how many hold which document. -/
def Level (h h' : Host) : Prop := ∀ k uri, held k uri h' = held k uri h

/-- One more holds one document after `h'` than after `h`. -/
def Raised (k : Nat) (uri : String) (h h' : Host) : Prop :=
  ∀ k' uri', held k' uri' h' = held k' uri' h + if k' = k ∧ uri' = uri then 1 else 0

/-- What a change may do to documents, and how that is noted. -/
inductive Handles (h h' : Host) : Grip → Grip → Prop where
  | same {g : Grip} : Level h h' → Handles h h' g g
  | tell : Level h h' → Handles h h' .fresh .told
  | take {g : Grip} {k : Nat} {uri : String} : g = .fresh ∨ g = .told → Raised k uri h h' →
    Handles h h' g (.holds k uri)
  | drop {k : Nat} {uri : String} : Raised k uri h' h →
    Handles h h' (.holds k uri) (.released k uri)
  | forget {k : Nat} {uri : String} : Level h h' → (h'.clientAt k).lifecycle = .shutDown →
    Handles h h' (.holds k uri) (.released k uri)

def Entry.idles (e : Entry) : Bool := e.deed.idles e.late e.again

def Allowed (e : Entry) (k : Nat) (m : Json) : Prop :=
  e.idles = false ∧
    match e.deed with
    | .start => e.ward = some k
    | .handshake c _ => c = k
    | .tool _ => isDocument m = true → e.grip ≠ .fresh
    | _ => True

structure Noted (h h' : Host) (e e' : Entry) : Prop where
  deed : e'.deed = e.deed
  late : e'.late = e.late
  again : e'.again = e.again
  added : e'.added = e.added ∨ ∃ k, e'.added = some k ∧ adds k (h, h') = true
  ward : e'.ward = e.ward ∨ e.ward = none ∧
    ∃ k, e'.ward = some k ∧ (h.slot = .running k ∨ e.added = some k)
  view : e'.view = none ∨ e'.view = some h'
  grip : e.deed.isTool = true → Handles h h' e.grip e'.grip
  still : e.deed.isTool = false → e'.grip = e.grip
  speech : ∀ k, ∀ m ∈ told k (h, h'), Allowed e' k m
  count : e.idles = true → h'.clients.length = h.clients.length
  greeted : e'.greeted = e.greeted ∨ ∃ k, e'.greeted = some k ∧ greets k (h, h') = true

structure May (i : Nat) (w w' : World) : Prop where
  length : w'.2.entries.length = w.2.entries.length
  own : ∀ e, w.2.entries[i]? = some e → ∃ e', w'.2.entries[i]? = some e' ∧ Noted w.1 w'.1 e e'
  asked : ∀ k, w'.2.asked k = w.2.asked k + partings k (w.1, w'.1)
  onward : Onward w.1 w'.1
  others : ∀ j, j ≠ i → Kept j w w'

theorem Onward.refl (h : Host) : Onward h h :=
  ⟨Nat.le_refl _, id, fun _ => Nat.le_refl _, fun _ => id⟩

theorem Onward.trans {h h' h'' : Host} (ho : Onward h h') (ho' : Onward h' h'') : Onward h h'' where
  count := ho.count.trans ho'.count
  stopped hs := ho'.stopped (ho.stopped hs)
  life k := (ho.life k).trans (ho'.life k)
  closed k hc := ho'.closed k (ho.closed k hc)

theorem Lasting.refl (w : World) : Lasting w w :=
  ⟨.refl w.1, id, fun _ => id, fun _ => id⟩

theorem Lasting.trans {u v w : World} (h : Lasting u v) (h' : Lasting v w) : Lasting u w where
  toOnward := h.toOnward.trans h'.toOnward
  started hs := h'.started (h.started hs)
  direct k hd := h'.direct k (h.direct k hd)
  gone k hk := h'.gone k (h.gone k hk)

theorem SlotKept.refl (w : World) : SlotKept w w := ⟨rfl, rfl, id⟩

theorem SlotKept.trans {u v w : World} (h : SlotKept u v) (h' : SlotKept v w) : SlotKept u w :=
  ⟨h'.slot.trans h.slot, h'.gone.trans h.gone, fun hs => h.started (h'.started hs)⟩

theorem ClientKept.refl (k : Nat) (w : World) : ClientKept k w w := ⟨rfl, rfl⟩

theorem ClientKept.trans {k : Nat} {u v w : World} (h : ClientKept k u v) (h' : ClientKept k v w) :
    ClientKept k u w := ⟨h'.docs.trans h.docs, h'.life.trans h.life⟩

theorem Secure.refl (e : Entry) (w : World) : Secure e w w :=
  ⟨fun _ _ _ h => ⟨h, .refl w⟩, fun k _ _ h => ⟨h, .refl k w⟩, .refl w⟩

theorem Secure.trans {e : Entry} {u v w : World} (h : Secure e u v) (h' : Secure e v w) :
    Secure e u w where
  seat n b hb hn :=
    have hv := h.seat n b hb hn
    have hw := h'.seat n b hb hv.1
    ⟨hw.1, hv.2.trans hw.2⟩
  place k n hk hn :=
    have hv := h.place k n hk hn
    have hw := h'.place k n hk hv.1
    ⟨hw.1, hv.2.trans hw.2⟩
  lasting := h.lasting.trans h'.lasting

theorem Kept.refl (i : Nat) (w : World) : Kept i w w := ⟨fun _ h => h, fun e _ => .refl e w⟩

theorem Kept.trans {i : Nat} {u v w : World} (h : Kept i u v) (h' : Kept i v w) : Kept i u w where
  entry e he := h'.entry e (h.entry e he)
  secure e he := (h.secure e he).trans (h'.secure e (h.entry e he))

/-- What the calls agree on, as one of them sees it. -/
def pact (i : Nat) : Pact Host Notes where
  Fine w := Sound (board w.1) w.2
  Kept := Kept i
  May := May i
  refl := Kept.refl i
  trans _ _ _ := .trans

end Office

end CodeBridge
