import ConnectRpc.Error
import ConnectRpc.Lib.Watch
import Mathlib.Data.List.AList
import Mathlib.Data.String.Basic

/-!
# The health checker

The health of each service is a watch channel, which a checker keeps under the name of the
service. A stream that watches a service receives from the channel that was there when it began.

What is asked of a checker is told by a ledger of registrations: each has the statuses that were
asked for it, and whether it was removed. The ledger knows nothing of channels. `Accounts` relates
the two, and `health_watch_law` tells by the ledger alone what `check` answers and what a stream
yields.
-/

namespace ConnectRpc.Health

open Lib

/-! ## The checker -/

/-- `Status`. -/
inductive Status : Type where
  | unknown
  | serving
  | notServing
  deriving DecidableEq

/-- The longest part of a name that is echoed, in bytes. -/
def MAX_ECHOED_NAME_BYTES : ℕ := 128

/-- Whether a character of a text begins at this byte, or the text ends there. -/
def isCharBoundary : List Char → ℕ → Bool
  | _, 0 => true
  | [], _ + 1 => false
  | c :: rest, n => decide (c.utf8Size ≤ n) && isCharBoundary rest (n - c.utf8Size)

/-- The last boundary up to this byte. -/
def floorCharBoundary (name : List Char) : ℕ → ℕ
  | 0 => 0
  | n + 1 => if isCharBoundary name (n + 1) then n + 1 else floorCharBoundary name n

/-- A text up to a boundary. -/
def sliceTo : List Char → ℕ → List Char
  | [], _ => []
  | c :: rest, n => if c.utf8Size ≤ n then c :: sliceTo rest (n - c.utf8Size) else []

/-- A name as it is shown in an error: `Echoed`. -/
def echoed (name : String) : String :=
  if name.utf8ByteSize ≤ MAX_ECHOED_NAME_BYTES then name
  else
    let shown := sliceTo name.toList (floorCharBoundary name.toList MAX_ECHOED_NAME_BYTES)
    String.ofList shown ++ s!"... [name truncated, {name.utf8ByteSize} bytes]"

/-- The error for a service that is not known. -/
def unknownService (service : String) : ConnectError :=
  .new .notFound s!"unknown service {echoed service}"

/-- `UnknownServiceError`. -/
structure UnknownServiceError where
  /-- the service -/
  service : String

/-- A stream of statuses: the channel that it receives from and the version that it has seen. -/
structure StatusStream where
  /-- the channel -/
  channel : ℕ
  /-- the version, if it was polled at all -/
  seen : Option ℕ

/-- `StaticChecker`, with all channels that were made and all streams. -/
structure StaticChecker where
  /-- the channels of which it has the senders -/
  services : AList fun _ : String => ℕ
  /-- the channels -/
  channels : List (Channel Status)
  /-- the streams -/
  streams : List StatusStream

namespace StaticChecker

/-- `StaticChecker::remove_service`. The sender is dropped. -/
def removeService (s : StaticChecker) (service : String) : Bool × StaticChecker :=
  match s.services.lookup service with
  | some i => (true, { s with
      services := s.services.erase service
      channels := s.channels.modify i Channel.close })
  | none => (false, s)

/-- A new channel under a name. A sender that was there is dropped. -/
def insertChannel (s : StaticChecker) (service : String) (status : Status) : StaticChecker :=
  let s := (s.removeService service).2
  { s with
    services := s.services.insert service s.channels.length
    channels := s.channels ++ [.new status] }

/-- `StaticChecker::with_services`. -/
def withServices (services : List String) : StaticChecker :=
  ("" :: services).foldl (fun s service => s.insertChannel service .serving) ⟨∅, [], []⟩

/-- `StaticChecker::register_with_status`. -/
def registerWithStatus (s : StaticChecker) (service : String) (status : Status) :
    Bool × StaticChecker :=
  match s.services.lookup service with
  | none => (true, s.insertChannel service status)
  | some _ => (false, s)

/-- `StaticChecker::register`. -/
def register (s : StaticChecker) (service : String) : Bool × StaticChecker :=
  s.registerWithStatus service .serving

/-- `StaticChecker::set_status`. -/
def setStatus (s : StaticChecker) (service : String) (status : Status) :
    Except UnknownServiceError Unit × StaticChecker :=
  match s.services.lookup service with
  | none => (.error ⟨service⟩, s)
  | some i => (.ok (), { s with channels := s.channels.modify i (Channel.set status) })

/-- `StaticChecker::shutdown`. It holds the lock, and a stream that is polled meanwhile finds
its own channel as it is either before or after. -/
def shutdown (s : StaticChecker) : StaticChecker :=
  { s with
    channels := s.services.entries.foldl
      (fun channels e => channels.modify e.2 (Channel.set .notServing)) s.channels }

/-- `StaticChecker::check`. -/
def check (s : StaticChecker) (service : String) : Except ConnectError Status :=
  match (s.services.lookup service).bind (s.channels[·]?) with
  | some c => .ok c.value
  | none => .error (unknownService service)

/-- `StaticChecker::watch`, which answers the number of the stream. -/
def watch (s : StaticChecker) (service : String) : Except ConnectError ℕ × StaticChecker :=
  match s.services.lookup service with
  | some i => (.ok s.streams.length, { s with streams := s.streams ++ [⟨i, none⟩] })
  | none => (.error (unknownService service), s)

/-- One poll of a stream, if there is one of this number. -/
def pollNext (s : StaticChecker) (i : ℕ) : Option (Poll (Option Status)) × StaticChecker :=
  match s.streams[i]? with
  | some t =>
    match s.channels[t.channel]? with
    | some c => (some (pollChannel c t.seen).1,
        { s with streams := s.streams.set i ⟨t.channel, (pollChannel c t.seen).2⟩ })
    | none => (none, s)
  | none => (none, s)

end StaticChecker

/-- What is asked of a checker or of a stream. -/
inductive Action : Type where
  | register (service : String)
  | registerWithStatus (service : String) (status : Status)
  | setStatus (service : String) (status : Status)
  | removeService (service : String)
  | shutdown
  | check (service : String)
  | watch (service : String)
  | pollNext (stream : ℕ)

/-- What is answered. -/
inductive Answer : Type where
  | registered (isNew : Bool)
  | set (result : Except UnknownServiceError Unit)
  | removed (wasThere : Bool)
  | done
  | checked (result : Except ConnectError Status)
  | watching (result : Except ConnectError ℕ)
  | polled (result : Option (Poll (Option Status)))

/-- One action: the answer, and the checker after it. -/
def StaticChecker.step (s : StaticChecker) : Action → Answer × StaticChecker
  | .register service => (.registered (s.register service).1, (s.register service).2)
  | .registerWithStatus service status =>
    (.registered (s.registerWithStatus service status).1, (s.registerWithStatus service status).2)
  | .setStatus service status =>
    (.set (s.setStatus service status).1, (s.setStatus service status).2)
  | .removeService service => (.removed (s.removeService service).1, (s.removeService service).2)
  | .shutdown => (.done, s.shutdown)
  | .check service => (.checked (s.check service), s)
  | .watch service => (.watching (s.watch service).1, (s.watch service).2)
  | .pollNext i => (.polled (s.pollNext i).1, (s.pollNext i).2)

/-- A checker that has answered some actions. -/
structure Run where
  /-- the actions, with the answers -/
  past : List (Action × Answer)
  /-- the checker -/
  checker : StaticChecker

/-- One more action. -/
def Run.next (p : Run) (a : Action) : Run :=
  ⟨p.past ++ [(a, (p.checker.step a).1)], (p.checker.step a).2⟩

/-- Some more actions, in any order whatever. -/
def Run.go (p : Run) (acts : List Action) : Run :=
  acts.foldl Run.next p

/-- A run from the start. -/
def run (services : List String) (acts : List Action) : Run :=
  Run.go ⟨[], .withServices services⟩ acts

/-- The status that a stream yields by an action. -/
def yieldedBy (i : ℕ) : Action × Answer → Option Status
  | (.pollNext j, .polled (some (.ready (some v)))) => if j = i then some v else none
  | _ => none

/-- What a stream has yielded. -/
def Run.yielded (p : Run) (i : ℕ) : List Status :=
  p.past.filterMap (yieldedBy i)

/-! ## The ledger -/

/-- A registration of a service. -/
structure Registration where
  /-- the service -/
  service : String
  /-- the status it was registered with -/
  first : Status
  /-- the statuses that were asked for since, the last one at the end -/
  later : List Status
  /-- whether it was removed -/
  removed : Bool
  deriving DecidableEq

namespace Registration

/-- The statuses that were asked for. -/
def requests (r : Registration) : List Status :=
  r.first :: r.later

/-- The last one. -/
def status (r : Registration) : Status :=
  r.requests.getLast (List.cons_ne_nil _ _)

/-- The statuses that it has had. To ask for the one that it has is no change. -/
def statuses (r : Registration) : List Status :=
  changes r.requests

/-- It is the current one of a service. -/
def Current (service : String) (r : Registration) : Prop :=
  r.service = service ∧ r.removed = false

instance (service : String) : DecidablePred (Current service) := fun r =>
  inferInstanceAs (Decidable (r.service = service ∧ r.removed = false))

/-- One more status. -/
def ask (status : Status) (r : Registration) : Registration :=
  { r with later := r.later ++ [status] }

/-- It is removed. -/
def remove (r : Registration) : Registration := { r with removed := true }

end Registration

/-- Where a stream began. -/
structure Subscription where
  /-- the number of the registration that it watches -/
  registration : ℕ
  /-- which of its statuses was the last one then -/
  since : ℕ
  deriving DecidableEq

/-- All that was asked. -/
structure Ledger where
  /-- the registrations -/
  registrations : List Registration
  /-- the streams -/
  subscriptions : List Subscription

namespace Ledger

/-- The current registration of a service, with its number. -/
def lookup (l : Ledger) (service : String) : Option (ℕ × Registration) :=
  (l.registrations.findIdx? fun r => decide (r.Current service)).bind fun i =>
    (l.registrations[i]?).map (i, ·)

/-- Changes some of the registrations. -/
def amend (l : Ledger) (which : Registration → Prop) [DecidablePred which]
    (change : Registration → Registration) : Ledger :=
  { l with registrations := l.registrations.map fun r => if which r then change r else r }

/-- A new registration, in place of the current one if there is one. -/
def enter (l : Ledger) (service : String) (status : Status) : Ledger :=
  let l := l.amend (·.Current service) .remove
  { l with registrations := l.registrations ++ [⟨service, status, [], false⟩] }

/-- The start. -/
def start (services : List String) : Ledger :=
  ("" :: services).foldl (fun l service => l.enter service .serving) ⟨[], []⟩

/-- A registration, unless there is a current one. -/
def register (l : Ledger) (service : String) (status : Status) : Ledger :=
  if (l.lookup service).isSome then l else l.enter service status

/-- What is written down of an action. -/
def note (l : Ledger) : Action → Ledger
  | .register service => l.register service .serving
  | .registerWithStatus service status => l.register service status
  | .setStatus service status => l.amend (·.Current service) (.ask status)
  | .removeService service => l.amend (·.Current service) .remove
  | .shutdown => l.amend (·.removed = false) (.ask .notServing)
  | .check _ => l
  | .watch service =>
    match l.lookup service with
    | some (i, r) =>
      { l with subscriptions := l.subscriptions ++ [⟨i, r.statuses.length - 1⟩] }
    | none => l
  | .pollNext _ => l

/-- What is written down of some actions. -/
def notes (l : Ledger) (acts : List Action) : Ledger :=
  acts.foldl note l

end Ledger

/-- The ledger of a run. -/
def ledger (services : List String) (acts : List Action) : Ledger :=
  (Ledger.start services).notes acts


/-! ## What is kept of a registration -/

/-- Every registration is still there. It may have had more statuses, but not if it was removed. -/
def Ledger.Keeps (l l' : Ledger) : Prop :=
  ∀ (i : ℕ) (r : Registration), l.registrations[i]? = some r → ∃ r', l'.registrations[i]? = some r' ∧
    r.statuses <+: r'.statuses ∧ (r.removed = true → r' = r)

theorem Registration.statuses_ne_nil (r : Registration) : r.statuses ≠ [] :=
  changes_ne_nil r.first r.later

theorem Registration.getLast?_statuses (r : Registration) :
    r.statuses.getLast? = some r.status := by
  rw [statuses, requests, getLast?_changes, List.getLast?_eq_getLast_of_ne_nil]
  rfl

theorem Registration.statuses_ask (r : Registration) (status : Status) :
    r.statuses <+: (r.ask status).statuses :=
  changes_prefix r.first status r.later

namespace Ledger

theorem Keeps.refl (l : Ledger) : l.Keeps l :=
  fun _ r hr => ⟨r, hr, List.prefix_rfl, fun _ => rfl⟩

theorem Keeps.trans {l l₁ l₂ : Ledger} (h : l.Keeps l₁) (h₁ : l₁.Keeps l₂) : l.Keeps l₂ := by
  intro i r hr
  obtain ⟨r₁, hr₁, hpre, hsame⟩ := h i r hr
  obtain ⟨r₂, hr₂, hpre₁, hsame₁⟩ := h₁ i r₁ hr₁
  refine ⟨r₂, hr₂, hpre.trans hpre₁, fun hremoved => ?_⟩
  have heq := hsame hremoved
  rw [hsame₁ (heq ▸ hremoved), heq]

theorem getElem?_amend (l : Ledger) (which : Registration → Prop) [DecidablePred which]
    (change : Registration → Registration) (i : ℕ) :
    (l.amend which change).registrations[i]? =
      (l.registrations[i]?).map fun r => if which r then change r else r :=
  List.getElem?_map

/-- Nothing is changed if no registration is meant. -/
theorem amend_of_none {l : Ledger} {which : Registration → Prop} [DecidablePred which]
    {change : Registration → Registration} (h : ∀ r ∈ l.registrations, ¬ which r) :
    l.amend which change = l := by
  have hsame : (l.registrations.map fun r => if which r then change r else r) =
      l.registrations.map id :=
    List.map_congr_left fun r hr => if_neg (h r hr)
  rw [amend, hsame, List.map_id]

theorem keeps_amend {l : Ledger} {which : Registration → Prop} [DecidablePred which]
    {change : Registration → Registration} (hpre : ∀ r, r.statuses <+: (change r).statuses)
    (hlive : ∀ r, which r → r.removed = false) : l.Keeps (l.amend which change) := by
  intro i r hr
  refine ⟨if which r then change r else r, ?_, ?_, fun hremoved => ?_⟩
  · rw [getElem?_amend, hr]
    rfl
  · split
    · exact hpre r
    · exact List.prefix_rfl
  · refine if_neg fun hwhich => ?_
    rw [hlive r hwhich] at hremoved
    cases hremoved

theorem keeps_remove (l : Ledger) (service : String) :
    l.Keeps (l.amend (·.Current service) .remove) :=
  keeps_amend (fun _ => List.prefix_rfl) fun _ h => h.2

theorem keeps_enter (l : Ledger) (service : String) (status : Status) :
    l.Keeps (l.enter service status) := by
  refine (keeps_remove l service).trans fun i r hr => ⟨r, ?_, List.prefix_rfl, fun _ => rfl⟩
  exact (List.getElem?_append_left (List.getElem?_eq_some_iff.mp hr).1).trans hr

theorem keeps_register (l : Ledger) (service : String) (status : Status) :
    l.Keeps (l.register service status) := by
  unfold register
  split
  · exact .refl l
  · exact keeps_enter l service status

theorem keeps_note (l : Ledger) (a : Action) : l.Keeps (l.note a) := by
  cases a with
  | register service => exact keeps_register l service .serving
  | registerWithStatus service status => exact keeps_register l service status
  | setStatus service status => exact keeps_amend (fun r => r.statuses_ask status) fun _ h => h.2
  | removeService service => exact keeps_remove l service
  | shutdown => exact keeps_amend (fun r => r.statuses_ask .notServing) fun _ h => h
  | check service => exact .refl l
  | watch service =>
    unfold note
    dsimp only
    split
    · exact fun _ r hr => ⟨r, hr, List.prefix_rfl, fun _ => rfl⟩
    · exact .refl l
  | pollNext i => exact .refl l

theorem keeps_notes (l : Ledger) (acts : List Action) : l.Keeps (l.notes acts) := by
  induction acts generalizing l with
  | nil => exact .refl l
  | cons a acts ih => exact (keeps_note l a).trans (ih (l.note a))

end Ledger

/-! ## The checker and the ledger -/

/-- The channels are those of the registrations, and the checker has the senders of the current
ones. -/
structure Accounts (l : Ledger) (s : StaticChecker) : Prop where
  /-- there is a channel for each registration -/
  length : s.channels.length = l.registrations.length
  /-- which has had the same statuses, and is closed when the registration is removed -/
  logged : ∀ (i : ℕ) (r : Registration), l.registrations[i]? = some r → ∃ c, s.channels[i]? = some c ∧
    Logged r.statuses c ∧ c.closed = r.removed
  /-- the senders -/
  services : ∀ service i, s.services.lookup service = some i ↔
    ∃ r, l.registrations[i]? = some r ∧ r.Current service

namespace Accounts

variable {l : Ledger} {s : StaticChecker}

theorem not_current (h : Accounts l s) {service : String}
    (hnone : s.services.lookup service = none) : ∀ r ∈ l.registrations, ¬ r.Current service := by
  intro r hr hcurrent
  obtain ⟨i, hi⟩ := List.getElem?_of_mem hr
  have hsome := (h.services service i).mpr ⟨r, hi, hcurrent⟩
  rw [hnone] at hsome
  cases hsome

/-- A service that the checker knows. -/
theorem lookup_some (h : Accounts l s) {service : String} {i : ℕ}
    (hi : s.services.lookup service = some i) :
    ∃ r, l.lookup service = some (i, r) ∧ l.registrations[i]? = some r := by
  obtain ⟨r, hr, hcurrent⟩ := (h.services service i).mp hi
  have hidx : l.registrations.findIdx? (fun r => decide (r.Current service)) = some i := by
    obtain ⟨hlt, hget⟩ := List.getElem?_eq_some_iff.mp hr
    refine List.findIdx?_eq_some_iff_getElem.mpr ⟨hlt, ?_, fun j hj => ?_⟩
    · rw [hget]
      exact decide_eq_true hcurrent
    · -- an earlier one would be under the same name
      intro hearlier
      have hother := (h.services service j).mpr
        ⟨_, List.getElem?_eq_getElem (hj.trans hlt), of_decide_eq_true hearlier⟩
      rw [hi] at hother
      exact absurd (Option.some.inj hother) (Nat.ne_of_gt hj)
  refine ⟨r, ?_, hr⟩
  rw [Ledger.lookup, hidx, Option.bind_some, hr]
  rfl

theorem lookup_none (h : Accounts l s) {service : String}
    (hnone : s.services.lookup service = none) : l.lookup service = none := by
  have hidx : l.registrations.findIdx? (fun r => decide (r.Current service)) = none :=
    List.findIdx?_eq_none_iff.mpr fun r hr => decide_eq_false (h.not_current hnone r hr)
  rw [Ledger.lookup, hidx]
  rfl

/-- Some registrations are changed, and their channels as well. -/
theorem amend (h : Accounts l s) {which : Registration → Prop} [DecidablePred which]
    {change : Registration → Registration} {f : Channel Status → Channel Status}
    {services : AList fun _ : String => ℕ} {channels : List (Channel Status)}
    (hlen : channels.length = s.channels.length)
    (hchannels : ∀ (i : ℕ) r c, l.registrations[i]? = some r → s.channels[i]? = some c →
      channels[i]? = some (if which r then f c else c))
    (hchange : ∀ r c, Logged r.statuses c → c.closed = r.removed →
      Logged (change r).statuses (f c) ∧ (f c).closed = (change r).removed)
    (hservices : ∀ service i, services.lookup service = some i ↔
      ∃ r, l.registrations[i]? = some r ∧ (if which r then change r else r).Current service) :
    Accounts (l.amend which change) { s with services := services, channels := channels } where
  length := by
    rw [hlen, h.length]
    exact (List.length_map _).symm
  logged := by
    intro i r hr
    rw [Ledger.getElem?_amend, Option.map_eq_some_iff] at hr
    obtain ⟨r₀, hr₀, rfl⟩ := hr
    obtain ⟨c, hc, hlog, hclosed⟩ := h.logged i r₀ hr₀
    refine ⟨_, hchannels i r₀ c hr₀ hc, ?_⟩
    split
    · exact hchange r₀ c hlog hclosed
    · exact ⟨hlog, hclosed⟩
  services := by
    intro service i
    rw [hservices, Ledger.getElem?_amend]
    constructor
    · rintro ⟨r, hr, hcurrent⟩
      exact ⟨_, by rw [hr]; rfl, hcurrent⟩
    · rintro ⟨r, hr, hcurrent⟩
      obtain ⟨r₀, hr₀, rfl⟩ := Option.map_eq_some_iff.mp hr
      exact ⟨r₀, hr₀, hcurrent⟩

/-- Some registrations are asked for a status. -/
theorem ask (h : Accounts l s) {which : Registration → Prop} [DecidablePred which]
    {status : Status} {channels : List (Channel Status)}
    (hlen : channels.length = s.channels.length)
    (hchannels : ∀ (i : ℕ) r c, l.registrations[i]? = some r → s.channels[i]? = some c →
      channels[i]? = some (if which r then c.set status else c)) :
    Accounts (l.amend which (.ask status)) { s with channels := channels } := by
  refine h.amend hlen hchannels (fun r c hlog hclosed => ⟨hlog.set status, ?_⟩) ?_
  · rw [Channel.closed_set]
    exact hclosed
  · intro service i
    rw [h.services]
    refine exists_congr fun r => and_congr_right fun _ => ?_
    split
    · rfl
    · rfl

/-- A channel that is under a name is that of the current registration. -/
theorem modify (h : Accounts l s) {service : String} {i : ℕ}
    (hi : s.services.lookup service = some i) (f : Channel Status → Channel Status) :
    ∀ (j : ℕ) r c, l.registrations[j]? = some r → s.channels[j]? = some c →
      (s.channels.modify i f)[j]? = some (if r.Current service then f c else c) := by
  intro j r c hr hc
  rw [List.getElem?_modify, hc]
  have hiff : i = j ↔ r.Current service := by
    constructor
    · rintro rfl
      obtain ⟨r', hr', hcurrent⟩ := (h.services service i).mp hi
      rw [hr] at hr'
      exact Option.some.inj hr' ▸ hcurrent
    · intro hcurrent
      have hj := (h.services service j).mpr ⟨r, hr, hcurrent⟩
      rw [hi] at hj
      exact Option.some.inj hj
  exact congrArg some (if_congr hiff rfl rfl)

theorem setStatus (h : Accounts l s) (service : String) (status : Status) :
    Accounts (l.amend (·.Current service) (.ask status)) (s.setStatus service status).2 := by
  unfold StaticChecker.setStatus
  split
  · next hnone =>
    rw [Ledger.amend_of_none (h.not_current hnone)]
    exact h
  · next i hi => exact h.ask (List.length_modify _ _ _) (h.modify hi _)

theorem removeService (h : Accounts l s) (service : String) :
    Accounts (l.amend (·.Current service) .remove) (s.removeService service).2 := by
  unfold StaticChecker.removeService
  split
  · next i hi =>
    refine h.amend (List.length_modify _ _ _) (h.modify hi _)
      (fun r c hlog _ => ⟨hlog.close, rfl⟩) fun other j => ?_
    by_cases hother : other = service
    · subst hother
      rw [AList.lookup_erase]
      constructor
      · intro hnone
        cases hnone
      · rintro ⟨r, -, hcurrent⟩
        split at hcurrent
        · cases hcurrent.2
        · contradiction
    · rw [AList.lookup_erase_ne hother, h.services]
      refine exists_congr fun r => and_congr_right fun _ => ?_
      split
      · next hcurrent =>
        constructor
        · intro hboth
          exact absurd (hboth.1.symm.trans hcurrent.1) hother
        · intro hremoved
          cases hremoved.2
      · rfl
  · next hnone =>
    rw [Ledger.amend_of_none (h.not_current hnone)]
    exact h

theorem getElem?_foldl_modify (status : Status) (entries : List (Sigma fun _ : String => ℕ))
    (channels : List (Channel Status)) (i : ℕ) :
    (entries.foldl (fun channels e => channels.modify e.2 (Channel.set status)) channels)[i]? =
      (channels[i]?).map fun c => if ∃ e ∈ entries, e.2 = i then c.set status else c := by
  induction entries generalizing channels with
  | nil => simp
  | cons e entries ih =>
    rw [List.foldl_cons, ih, List.getElem?_modify]
    cases channels[i]? with
    | none => rfl
    | some c =>
      refine congrArg some ?_
      dsimp only
      by_cases he : e.2 = i
      · have hmem : ∃ e' ∈ e :: entries, e'.2 = i := ⟨e, List.mem_cons_self, he⟩
        rw [if_pos he, if_pos hmem, Channel.set_set]
        exact ite_self _
      · rw [if_neg he]
        refine if_congr ?_ rfl rfl
        simp [he]

theorem length_foldl_modify (status : Status) (entries : List (Sigma fun _ : String => ℕ))
    (channels : List (Channel Status)) :
    (entries.foldl (fun channels e => channels.modify e.2 (Channel.set status)) channels).length =
      channels.length := by
  induction entries generalizing channels with
  | nil => rfl
  | cons e entries ih => rw [List.foldl_cons, ih, List.length_modify]

theorem shutdown (h : Accounts l s) :
    Accounts (l.amend (·.removed = false) (.ask .notServing)) s.shutdown := by
  refine h.ask (length_foldl_modify _ _ _) fun i r c hr hc => ?_
  rw [getElem?_foldl_modify, hc, Option.map_some]
  refine congrArg some (if_congr ?_ rfl rfl)
  constructor
  · rintro ⟨⟨service, j⟩, he, rfl⟩
    obtain ⟨r', hr', hcurrent⟩ := (h.services service _).mp (AList.mem_lookup_iff.mpr he)
    rw [hr] at hr'
    exact Option.some.inj hr' ▸ hcurrent.2
  · intro hlive
    have hlookup := (h.services r.service i).mpr ⟨r, hr, rfl, hlive⟩
    exact ⟨⟨r.service, i⟩, AList.mem_lookup_iff.mp hlookup, rfl⟩

theorem lookup_removeService (s : StaticChecker) (service : String) :
    (s.removeService service).2.services.lookup service = none := by
  unfold StaticChecker.removeService
  split
  · exact AList.lookup_erase _ _
  · assumption

theorem insertChannel (h : Accounts l s) (service : String) (status : Status) :
    Accounts (l.enter service status) (s.insertChannel service status) := by
  have h := h.removeService service
  have hfree := lookup_removeService s service
  unfold StaticChecker.insertChannel Ledger.enter
  generalize (s.removeService service).2 = s at h hfree
  generalize l.amend (·.Current service) .remove = l at h
  refine ⟨?_, fun i r hr => ?_, fun other i => ?_⟩
  · rw [List.length_append, List.length_append, h.length]
    rfl
  · by_cases hi : i < l.registrations.length
    · rw [List.getElem?_append_left hi] at hr
      rw [List.getElem?_append_left (h.length ▸ hi)]
      exact h.logged i r hr
    · have hle : l.registrations.length ≤ i := Nat.le_of_not_lt hi
      rw [List.getElem?_append_right hle, List.getElem?_singleton] at hr
      split at hr
      · next hzero =>
        cases hr
        refine ⟨.new status, ?_, logged_new status, rfl⟩
        rw [List.getElem?_append_right (h.length ▸ hle), h.length, hzero]
        rfl
      · cases hr
  · have hlast (r : Registration) : (l.registrations ++ [⟨service, status, [], false⟩])[i]? = some r ↔
        l.registrations[i]? = some r ∨
          i = l.registrations.length ∧ r = ⟨service, status, [], false⟩ := by
      rw [List.getElem?_append]
      split
      · next hi => simp [Nat.ne_of_lt hi]
      · next hi =>
        have hle : l.registrations.length ≤ i := Nat.le_of_not_lt hi
        rw [List.getElem?_singleton, List.getElem?_eq_none hle]
        split
        · next hzero =>
          have heq : i = l.registrations.length := by omega
          simp [heq, eq_comm]
        · next hpos =>
          have hne : i ≠ l.registrations.length := by omega
          simp [hne]
    by_cases hother : other = service
    · subst hother
      rw [AList.lookup_insert, h.length]
      constructor
      · intro heq
        cases heq
        exact ⟨_, (hlast _).mpr (.inr ⟨rfl, rfl⟩), rfl, rfl⟩
      · rintro ⟨r, hr, hcurrent⟩
        rcases (hlast r).mp hr with hold | ⟨rfl, -⟩
        · exact absurd hcurrent (h.not_current hfree r (List.mem_of_getElem? hold))
        · rfl
    · rw [AList.lookup_insert_ne hother, h.services]
      refine exists_congr fun r => ⟨?_, ?_⟩
      · rintro ⟨hr, hcurrent⟩
        exact ⟨(hlast r).mpr (.inl hr), hcurrent⟩
      · rintro ⟨hr, hcurrent⟩
        rcases (hlast r).mp hr with hold | ⟨-, rfl⟩
        · exact ⟨hold, hcurrent⟩
        · exact absurd hcurrent.1.symm hother

theorem register (h : Accounts l s) (service : String) (status : Status) :
    Accounts (l.register service status) (s.registerWithStatus service status).2 := by
  rcases hi : s.services.lookup service with _ | i
  · rw [StaticChecker.registerWithStatus, hi, Ledger.register, h.lookup_none hi]
    exact h.insertChannel service status
  · obtain ⟨r, hlookup, -⟩ := h.lookup_some hi
    rw [StaticChecker.registerWithStatus, hi, Ledger.register, hlookup]
    exact h

end Accounts

theorem accounts_start (services : List String) :
    Accounts (Ledger.start services) (.withServices services) := by
  have hfold : ∀ (names : List String) (l : Ledger) (s : StaticChecker), Accounts l s →
      Accounts (names.foldl (fun l service => l.enter service .serving) l)
        (names.foldl (fun s service => s.insertChannel service .serving) s) := by
    intro names
    induction names with
    | nil => exact fun _ _ h => h
    | cons name names ih => exact fun l s h => ih _ _ (h.insertChannel name .serving)
  refine hfold _ _ _ ⟨rfl, fun i r hr => ?_, fun service i => ?_⟩
  · cases hr
  · rw [AList.lookup_empty]
    simp

/-! ## The streams -/

/-- The checker of a run and its streams are as the ledger tells. -/
structure Attends (l : Ledger) (p : Run) : Prop where
  /-- the checker -/
  accounts : Accounts l p.checker
  /-- there is a subscription for each stream -/
  length : p.checker.streams.length = l.subscriptions.length
  /-- which has yielded statuses that its registration has had since it began -/
  streams : ∀ (i : ℕ) (sub : Subscription), l.subscriptions[i]? = some sub →
    ∃ seen r, p.checker.streams[i]? = some ⟨sub.registration, seen⟩ ∧
      l.registrations[sub.registration]? = some r ∧ sub.since < r.statuses.length ∧
      Follows r.statuses sub.since (p.yielded i) seen
  /-- nothing is yielded by a stream that is not there yet -/
  unborn : ∀ i, l.subscriptions.length ≤ i → p.yielded i = []

theorem Run.yielded_next (p : Run) (a : Action) (i : ℕ) :
    (p.next a).yielded i =
      p.yielded i ++ (yieldedBy i (a, (p.checker.step a).1)).toList := by
  rw [yielded, Run.next, List.filterMap_append, yielded]
  rcases h : yieldedBy i (a, (p.checker.step a).1) with _ | v
  · rw [List.filterMap_cons_none h]
    rfl
  · rw [List.filterMap_cons_some h]
    rfl

namespace StaticChecker

theorem streams_removeService (s : StaticChecker) (service : String) :
    (s.removeService service).2.streams = s.streams := by
  unfold removeService
  split
  · rfl
  · rfl

theorem streams_registerWithStatus (s : StaticChecker) (service : String) (status : Status) :
    (s.registerWithStatus service status).2.streams = s.streams := by
  unfold registerWithStatus
  split
  · exact streams_removeService s service
  · rfl

theorem streams_setStatus (s : StaticChecker) (service : String) (status : Status) :
    (s.setStatus service status).2.streams = s.streams := by
  unfold setStatus
  split
  · rfl
  · rfl

end StaticChecker

theorem Ledger.subscriptions_register (l : Ledger) (service : String) (status : Status) :
    (l.register service status).subscriptions = l.subscriptions := by
  unfold register
  split
  · rfl
  · rfl

namespace Attends

variable {l : Ledger} {p : Run}

/-- An action that is about no stream. -/
theorem quiet (h : Attends l p) {a : Action} (accounts : Accounts (l.note a) (p.checker.step a).2)
    (hstreams : (p.checker.step a).2.streams = p.checker.streams)
    (hsubs : (l.note a).subscriptions = l.subscriptions)
    (hyields : ∀ i answer, yieldedBy i (a, answer) = none) : Attends (l.note a) (p.next a) := by
  have hsame : ∀ i, (p.next a).yielded i = p.yielded i := by
    intro i
    rw [Run.yielded_next, hyields]
    exact List.append_nil _
  refine ⟨accounts, ?_, fun i sub hsub => ?_, fun i hi => ?_⟩
  · rw [hsubs]
    exact (congrArg List.length hstreams).trans h.length
  · rw [hsubs] at hsub
    obtain ⟨seen, r, ht, hr, hsince, hfollows⟩ := h.streams i sub hsub
    obtain ⟨r', hr', hpre, -⟩ := l.keeps_note a _ r hr
    refine ⟨seen, r', ?_, hr', hsince.trans_le hpre.length_le, ?_⟩
    · exact (congrArg (·[i]?) hstreams).trans ht
    · rw [hsame]
      exact hfollows.mono hpre
  · rw [hsame]
    rw [hsubs] at hi
    exact h.unborn i hi

/-- A stream begins. -/
theorem watch (h : Attends l p) (service : String) :
    Attends (l.note (.watch service)) (p.next (.watch service)) := by
  rcases hi : p.checker.services.lookup service with _ | k
  · have hnote : l.note (.watch service) = l := by
      unfold Ledger.note
      dsimp only
      rw [h.accounts.lookup_none hi]
    have hstep : (p.checker.step (.watch service)).2 = p.checker := by
      unfold StaticChecker.step StaticChecker.watch
      dsimp only
      rw [hi]
    refine h.quiet ?_ (congrArg StaticChecker.streams hstep)
      (congrArg Ledger.subscriptions hnote) fun _ _ => rfl
    rw [hnote, hstep]
    exact h.accounts
  · obtain ⟨r, hlookup, hr⟩ := h.accounts.lookup_some hi
    have hnote : l.note (.watch service) =
        ⟨l.registrations, l.subscriptions ++ [⟨k, r.statuses.length - 1⟩]⟩ := by
      unfold Ledger.note
      dsimp only
      rw [hlookup]
    have hstep : (p.checker.step (.watch service)).2 =
        { p.checker with streams := p.checker.streams ++ [⟨k, none⟩] } := by
      unfold StaticChecker.step StaticChecker.watch
      dsimp only
      rw [hi]
    have hsame : ∀ i, (p.next (.watch service)).yielded i = p.yielded i := by
      intro i
      rw [Run.yielded_next]
      exact List.append_nil _
    rw [hnote]
    have hnext : (p.next (.watch service)).checker =
        { p.checker with streams := p.checker.streams ++ [⟨k, none⟩] } := hstep
    refine ⟨?_, ?_, fun i sub hsub => ?_, fun i hle => ?_⟩
    · rw [hnext]
      exact ⟨h.accounts.length, h.accounts.logged, h.accounts.services⟩
    · rw [hnext, List.length_append, List.length_append, h.length]
      rfl
    · rw [hnext, hsame]
      by_cases hlt : i < l.subscriptions.length
      · rw [List.getElem?_append_left hlt] at hsub
        rw [List.getElem?_append_left (h.length ▸ hlt)]
        exact h.streams i sub hsub
      · have hle : l.subscriptions.length ≤ i := Nat.le_of_not_lt hlt
        rw [List.getElem?_append_right hle, List.getElem?_singleton] at hsub
        split at hsub
        · next hzero =>
          cases hsub
          refine ⟨none, r, ?_, hr, ?_, h.unborn i hle⟩
          · rw [List.getElem?_append_right (h.length ▸ hle), h.length, hzero]
            rfl
          · exact Nat.sub_one_lt (List.length_pos_of_ne_nil r.statuses_ne_nil).ne'
        · cases hsub
    · rw [hsame]
      refine h.unborn i ((Nat.le_add_right _ _).trans (?_ : l.subscriptions.length + 1 ≤ i))
      rwa [List.length_append] at hle

/-- What a poll of a stream answers, and what it has seen then. -/
theorem poll (h : Attends l p) {i : ℕ} {sub : Subscription} (hsub : l.subscriptions[i]? = some sub) :
    ∃ seen r c, l.registrations[sub.registration]? = some r ∧
      p.checker.streams[i]? = some ⟨sub.registration, seen⟩ ∧
      Logged r.statuses c ∧ c.closed = r.removed ∧ sub.since < r.statuses.length ∧
      Follows r.statuses sub.since (p.yielded i) seen ∧
      p.checker.pollNext i = (some (pollChannel c seen).1, { p.checker with
        streams := p.checker.streams.set i ⟨sub.registration, (pollChannel c seen).2⟩ }) := by
  obtain ⟨seen, r, ht, hr, hsince, hfollows⟩ := h.streams i sub hsub
  obtain ⟨c, hc, hlog, hclosed⟩ := h.accounts.logged _ r hr
  refine ⟨seen, r, c, hr, ht, hlog, hclosed, hsince, hfollows, ?_⟩
  rw [StaticChecker.pollNext, ht]
  dsimp only
  rw [hc]

/-- A stream is polled. -/
theorem pollNext (h : Attends l p) (i : ℕ) : Attends l (p.next (.pollNext i)) := by
  rcases hsub : l.subscriptions[i]? with _ | sub
  · have hnone : p.checker.streams[i]? = none := by
      rw [List.getElem?_eq_none_iff] at hsub ⊢
      exact h.length ▸ hsub
    have hpoll : p.checker.pollNext i = (none, p.checker) := by
      rw [StaticChecker.pollNext, hnone]
    have hchecker : (p.next (.pollNext i)).checker = p.checker := congrArg Prod.snd hpoll
    have hsame : ∀ j, (p.next (.pollNext i)).yielded j = p.yielded j := by
      intro j
      rw [Run.yielded_next, StaticChecker.step, hpoll]
      exact List.append_nil _
    refine ⟨hchecker ▸ h.accounts, hchecker ▸ h.length, fun j sub hj => ?_, fun j hj => ?_⟩
    · rw [hchecker, hsame]
      exact h.streams j sub hj
    · rw [hsame]
      exact h.unborn j hj
  · obtain ⟨seen, r, c, hr, ht, hlog, -, hsince, hfollows, hpoll⟩ := h.poll hsub
    have hchecker : (p.next (.pollNext i)).checker = { p.checker with
        streams := p.checker.streams.set i ⟨sub.registration, (pollChannel c seen).2⟩ } :=
      congrArg Prod.snd hpoll
    have hother : ∀ j, i ≠ j → (p.next (.pollNext i)).yielded j = p.yielded j := by
      intro j hj
      rw [Run.yielded_next, StaticChecker.step, hpoll]
      dsimp only
      rcases (pollChannel c seen).1 with _ | _ | v
      · exact List.append_nil _
      · exact List.append_nil _
      · rw [show yieldedBy j (.pollNext i, .polled (some (.ready (some v)))) = none from if_neg hj]
        exact List.append_nil _
    refine ⟨?_, ?_, fun j sub' hj => ?_, fun j hj => ?_⟩
    · rw [hchecker]
      exact ⟨h.accounts.length, h.accounts.logged, h.accounts.services⟩
    · rw [hchecker, List.length_set]
      exact h.length
    · rw [hchecker]
      by_cases heq : i = j
      · subst heq
        rw [hsub] at hj
        cases hj
        refine ⟨(pollChannel c seen).2, r, ?_, hr, hsince, ?_⟩
        · exact List.getElem?_set_self (List.getElem?_eq_some_iff.mp ht).1
        · rw [Run.yielded_next, StaticChecker.step, hpoll]
          rcases hfollows.poll hlog hsince with ⟨-, hseen, -, -, hanswer⟩ | ⟨hanswer, hnew⟩
          · rw [hanswer, hseen]
            split
            · exact (List.append_nil (p.yielded i)).symm ▸ hfollows
            · exact (List.append_nil (p.yielded i)).symm ▸ hfollows
          · rw [hanswer]
            rw [show yieldedBy i (.pollNext i, .polled (some (.ready (some c.value)))) =
              some c.value from if_pos rfl]
            exact hnew
      · rw [hother j heq, List.getElem?_set_ne heq]
        exact h.streams j sub' hj
    · have hne : i ≠ j := by
        rintro rfl
        rw [List.getElem?_eq_none_iff.mpr hj] at hsub
        cases hsub
      rw [hother j hne]
      exact h.unborn j hj

/-- **One action.** -/
theorem next (h : Attends l p) (a : Action) : Attends (l.note a) (p.next a) := by
  cases a with
  | register service =>
    exact h.quiet (h.accounts.register service .serving)
      (StaticChecker.streams_registerWithStatus _ _ _) (l.subscriptions_register _ _) fun _ _ => rfl
  | registerWithStatus service status =>
    exact h.quiet (h.accounts.register service status)
      (StaticChecker.streams_registerWithStatus _ _ _) (l.subscriptions_register _ _) fun _ _ => rfl
  | setStatus service status =>
    exact h.quiet (h.accounts.setStatus service status)
      (StaticChecker.streams_setStatus _ _ _) rfl fun _ _ => rfl
  | removeService service =>
    exact h.quiet (h.accounts.removeService service)
      (StaticChecker.streams_removeService _ _) rfl fun _ _ => rfl
  | shutdown => exact h.quiet h.accounts.shutdown rfl rfl fun _ _ => rfl
  | check service => exact h.quiet h.accounts rfl rfl fun _ _ => rfl
  | watch service => exact h.watch service
  | pollNext i => exact h.pollNext i

theorem go (h : Attends l p) (acts : List Action) : Attends (l.notes acts) (p.go acts) := by
  induction acts generalizing l p with
  | nil => exact h
  | cons a acts ih => exact ih (h.next a)

end Attends

theorem Ledger.subscriptions_start (services : List String) :
    (start services).subscriptions = [] := by
  have hfold : ∀ (names : List String) (l : Ledger),
      (names.foldl (fun l service => l.enter service .serving) l).subscriptions =
        l.subscriptions := by
    intro names
    induction names with
    | nil => exact fun _ => rfl
    | cons name names ih => exact fun l => ih _
  exact hfold _ _

theorem StaticChecker.streams_withServices (services : List String) :
    (withServices services).streams = [] := by
  have hfold : ∀ (names : List String) (s : StaticChecker),
      (names.foldl (fun s service => s.insertChannel service .serving) s).streams =
        s.streams := by
    intro names
    induction names with
    | nil => exact fun _ => rfl
    | cons name names ih => exact fun s => (ih _).trans (streams_removeService s name)
  exact hfold _ _

/-- **Every run** is as its ledger tells. -/
theorem attends_run (services : List String) (acts : List Action) :
    Attends (ledger services acts) (run services acts) := by
  refine Attends.go ⟨accounts_start services, ?_, fun i sub hsub => ?_, fun i _ => rfl⟩ acts
  · rw [Ledger.subscriptions_start]
    exact congrArg List.length (StaticChecker.streams_withServices services)
  · rw [Ledger.subscriptions_start] at hsub
    cases hsub

/-! ## The law -/

/-- A poll leaves a stream that has seen the version that is there. -/
theorem pollChannel_seen (c : Channel Status) (seen : Option ℕ) :
    (pollChannel c seen).2 = some c.version := by
  unfold pollChannel
  split
  · assumption
  · rfl

/-- Streams are never dropped, and only a poll changes one. -/
theorem StaticChecker.streams_step (s : StaticChecker) {a : Action} (ha : ∀ i, a ≠ .pollNext i) :
    ∃ more, (s.step a).2.streams = s.streams ++ more := by
  have hsame : ∀ t : StaticChecker, t.streams = s.streams → ∃ more, t.streams = s.streams ++ more :=
    fun t ht => ⟨[], by rw [ht, List.append_nil]⟩
  cases a with
  | register service => exact hsame _ (streams_registerWithStatus s service .serving)
  | registerWithStatus service status => exact hsame _ (streams_registerWithStatus s service status)
  | setStatus service status => exact hsame _ (streams_setStatus s service status)
  | removeService service => exact hsame _ (streams_removeService s service)
  | shutdown => exact hsame _ rfl
  | check service => exact hsame _ rfl
  | watch service =>
    unfold step watch
    dsimp only
    split
    · exact ⟨_, rfl⟩
    · exact hsame _ rfl
  | pollNext i => exact absurd rfl (ha i)

namespace Attends

variable {l : Ledger} {p : Run} {i : ℕ} {sub : Subscription}

/-- What a stream has seen it has seen. -/
theorem seen_next (h : Attends l p) (hsub : l.subscriptions[i]? = some sub) {v : ℕ}
    (hseen : p.checker.streams[i]? = some ⟨sub.registration, some v⟩) (a : Action) :
    ∃ v', v ≤ v' ∧ (p.next a).checker.streams[i]? = some ⟨sub.registration, some v'⟩ := by
  by_cases ha : a = .pollNext i
  · subst ha
    obtain ⟨seen, r, c, -, ht, hlog, -, -, hfollows, hpoll⟩ := h.poll hsub
    rw [hseen] at ht
    cases ht
    have hv : v < c.version + 1 := hlog.version ▸ hfollows.1
    refine ⟨c.version, Nat.lt_succ_iff.mp hv, ?_⟩
    have hchecker : (p.next (.pollNext i)).checker = { p.checker with
        streams := p.checker.streams.set i ⟨sub.registration, some c.version⟩ } := by
      rw [← pollChannel_seen c (some v)]
      exact congrArg Prod.snd hpoll
    rw [hchecker]
    exact List.getElem?_set_self (List.getElem?_eq_some_iff.mp hseen).1
  · refine ⟨v, Nat.le_refl v, ?_⟩
    by_cases hother : ∃ j, a = .pollNext j
    · obtain ⟨j, rfl⟩ := hother
      have hne : j ≠ i := fun heq => ha (heq ▸ rfl)
      rw [← hseen]
      change (p.checker.pollNext j).2.streams[i]? = _
      unfold StaticChecker.pollNext
      split
      · split
        · exact List.getElem?_set_ne hne
        · rfl
      · rfl
    · obtain ⟨more, hmore⟩ := p.checker.streams_step (a := a) fun j hj => hother ⟨j, hj⟩
      change (p.checker.step a).2.streams[i]? = _
      rw [hmore, List.getElem?_append_left (List.getElem?_eq_some_iff.mp hseen).1]
      exact hseen

theorem subscriptions_note (h : l.subscriptions[i]? = some sub) (a : Action) :
    (l.note a).subscriptions[i]? = some sub := by
  have hsame : ∀ l' : Ledger, l'.subscriptions = l.subscriptions →
      l'.subscriptions[i]? = some sub := fun l' hl => hl ▸ h
  cases a with
  | register service => exact hsame _ (l.subscriptions_register service .serving)
  | registerWithStatus service status => exact hsame _ (l.subscriptions_register service status)
  | setStatus service status => exact h
  | removeService service => exact h
  | shutdown => exact h
  | check service => exact h
  | watch service =>
    unfold Ledger.note
    dsimp only
    split
    · exact (List.getElem?_append_left (List.getElem?_eq_some_iff.mp h).1).trans h
    · exact h
  | pollNext j => exact h

theorem seen_go (h : Attends l p) (hsub : l.subscriptions[i]? = some sub) {v : ℕ}
    (hseen : p.checker.streams[i]? = some ⟨sub.registration, some v⟩) (acts : List Action) :
    (l.notes acts).subscriptions[i]? = some sub ∧
      ∃ v', v ≤ v' ∧ (p.go acts).checker.streams[i]? = some ⟨sub.registration, some v'⟩ := by
  induction acts generalizing l p v with
  | nil => exact ⟨hsub, v, Nat.le_refl v, hseen⟩
  | cons a acts ih =>
    obtain ⟨v', hle, hseen'⟩ := h.seen_next hsub hseen a
    obtain ⟨hsub', v₂, hle', hseen₂⟩ := ih (h.next a) (subscriptions_note hsub a) hseen'
    exact ⟨hsub', v₂, hle.trans hle', hseen₂⟩

end Attends

/-- What a stream does that watches a registration from one of its statuses on. -/
structure WatcherLaw (p : Run) (i : ℕ) (r : Registration) (since : ℕ) : Prop where
  /-- it has yielded some of the statuses since then, in order -/
  yields : (p.yielded i).Sublist (r.statuses.drop since)
  /-- it can be polled -/
  answers : (p.checker.pollNext i).1 ≠ none
  /-- the first poll yields the status that there is -/
  first : p.yielded i = [] → (p.checker.pollNext i).1 = some (.ready (some r.status))
  /-- and so does every poll that yields one -/
  latest : ∀ v, (p.checker.pollNext i).1 = some (.ready (some v)) → v = r.status
  /-- it waits only for a registration that is not removed, and if it has yielded the last status -/
  waits : (p.checker.pollNext i).1 = some .pending →
    r.removed = false ∧ (p.yielded i).getLast? = some r.status
  /-- it ends only for one that is removed, and if it has yielded the last status -/
  ends : (p.checker.pollNext i).1 = some (.ready none) →
    r.removed = true ∧ (p.yielded i).getLast? = some r.status
  /-- of one that is removed it yields at most one status more, whatever happens then -/
  ended : r.removed = true → ∀ acts,
    ((p.next (.pollNext i)).go acts |>.checker.pollNext i).1 = some (.ready none)

/-- **A stream** keeps the law. -/
theorem Attends.watcherLaw {l : Ledger} {p : Run} {i : ℕ} {sub : Subscription} (h : Attends l p)
    (hsub : l.subscriptions[i]? = some sub) :
    ∃ r, l.registrations[sub.registration]? = some r ∧ sub.since < r.statuses.length ∧
      WatcherLaw p i r sub.since := by
  obtain ⟨seen, r, c, hr, ht, hlog, hclosed, hsince, hfollows, hpoll⟩ := h.poll hsub
  have hstatus : c.value = r.status := by
    have hlast := hlog.value
    rw [r.getLast?_statuses] at hlast
    exact (Option.some.inj hlast).symm
  refine ⟨r, hr, hsince, ?_⟩
  have hended : r.removed = true → ∀ acts,
      ((p.next (.pollNext i)).go acts |>.checker.pollNext i).1 = some (.ready none) := by
    intro hremoved acts
    -- the stream has seen the last version, and there is none after it
    have hnext := h.next (.pollNext i)
    have hseen : (p.next (.pollNext i)).checker.streams[i]? =
        some ⟨sub.registration, some c.version⟩ := by
      change (p.checker.pollNext i).2.streams[i]? = _
      rw [hpoll, pollChannel_seen]
      exact List.getElem?_set_self (List.getElem?_eq_some_iff.mp ht).1
    have hsub₁ : (l.note (.pollNext i)).subscriptions[i]? = some sub := hsub
    obtain ⟨hsub', v, hle, hseen'⟩ := hnext.seen_go hsub₁ hseen acts
    obtain ⟨seen', r', c', hr', ht', hlog', hclosed', -, hfollows', hpoll'⟩ :=
      (hnext.go acts).poll hsub'
    obtain ⟨r₂, hr₂, -, hsame⟩ := (l.note (.pollNext i)).keeps_notes acts _ r hr
    rw [hr'] at hr₂
    cases hr₂
    cases hsame hremoved
    rw [hseen'] at ht'
    cases ht'
    have hversion : c'.version = c.version :=
      Nat.succ.inj (hlog'.version.symm.trans hlog.version)
    have hv : v = c'.version := by
      have hlt : v < c'.version + 1 := hlog'.version ▸ hfollows'.1
      omega
    rw [hpoll', pollChannel, if_pos (congrArg some hv), hclosed', hremoved]
    rfl
  rcases hfollows.poll hlog hsince with ⟨-, -, hlast, hne, hanswer⟩ | ⟨hanswer, -⟩
  · rw [r.getLast?_statuses] at hlast
    have hfirst : (p.checker.pollNext i).1 =
        some (if r.removed then .ready none else .pending) := by
      rw [hpoll, hanswer, hclosed]
    refine ⟨hfollows.sublist, ?_, fun hnil => absurd hnil hne, fun v hv => ?_, fun hwait => ?_,
      fun hend => ?_, hended⟩
    · rw [hfirst]
      exact Option.some_ne_none _
    · rw [hfirst] at hv
      split at hv
      · cases hv
      · cases hv
    · rw [hfirst] at hwait
      split at hwait
      · cases hwait
      · next hlive => exact ⟨Bool.eq_false_iff.mpr hlive, hlast⟩
    · rw [hfirst] at hend
      split at hend
      · next hremoved => exact ⟨hremoved, hlast⟩
      · cases hend
  · have hfirst : (p.checker.pollNext i).1 = some (.ready (some r.status)) := by
      rw [hpoll, hanswer, hstatus]
    refine ⟨hfollows.sublist, ?_, fun _ => hfirst, fun v hv => ?_, fun hwait => ?_,
      fun hend => ?_, hended⟩
    · rw [hfirst]
      exact Option.some_ne_none _
    · rw [hfirst] at hv
      cases hv
      rfl
    · rw [hfirst] at hwait
      cases hwait
    · rw [hfirst] at hend
      cases hend

/-- What `check` is to answer. -/
def Ledger.check (l : Ledger) (service : String) : Except ConnectError Status :=
  match l.lookup service with
  | some (_, r) => .ok r.status
  | none => .error (unknownService service)

theorem Accounts.check {l : Ledger} {s : StaticChecker} (h : Accounts l s) (service : String) :
    s.check service = l.check service := by
  rcases hi : s.services.lookup service with _ | i
  · rw [StaticChecker.check, Ledger.check, hi, h.lookup_none hi]
    rfl
  · obtain ⟨r, hlookup, hr⟩ := h.lookup_some hi
    obtain ⟨c, hc, hlog, -⟩ := h.logged i r hr
    have hstatus : some r.status = some c.value := r.getLast?_statuses.symm.trans hlog.value
    rw [StaticChecker.check, Ledger.check, hi, hlookup, Option.bind_some, hc]
    exact congrArg Except.ok (Option.some.inj hstatus).symm

/-- Whether a service is registered. -/
def Ledger.Knows (l : Ledger) (service : String) : Prop :=
  (l.lookup service).isSome = true

instance (l : Ledger) (service : String) : Decidable (l.Knows service) :=
  inferInstanceAs (Decidable ((l.lookup service).isSome = true))

/-- A service that is registered already. -/
theorem Accounts.register_known {l : Ledger} {s : StaticChecker} (h : Accounts l s)
    {service : String} (hknown : l.Knows service) (status : Status) :
    s.registerWithStatus service status = (false, s) := by
  rcases hi : s.services.lookup service with _ | i
  · rw [Ledger.Knows, h.lookup_none hi] at hknown
    cases hknown
  · rw [StaticChecker.registerWithStatus, hi]

/-- A stream begins at the current registration, if there is one. -/
theorem Accounts.watch {l : Ledger} {s : StaticChecker} (h : Accounts l s) (service : String) :
    (s.watch service).1 =
      if l.Knows service then .ok s.streams.length else .error (unknownService service) := by
  rcases hi : s.services.lookup service with _ | i
  · have hunknown : ¬ l.Knows service := by
      rw [Ledger.Knows, h.lookup_none hi]
      exact Bool.false_ne_true
    rw [StaticChecker.watch, hi, if_neg hunknown]
  · obtain ⟨r, hlookup, -⟩ := h.lookup_some hi
    have hknown : l.Knows service := by
      rw [Ledger.Knows, hlookup]
      rfl
    rw [StaticChecker.watch, hi, if_pos hknown]

/-- **The health checker.** After any actions, in any order, `check` answers the last status that
was asked for the current registration of a service, or that there is none. A stream keeps to the
registration that was current when it began, and yields, from the status that there is at its
first poll on, some of the later ones and the last; it ends when the registration is removed, and
only then. A registration that was removed stays as it is, and to register a service that is
registered already does nothing. -/
theorem health_watch_law (services : List String) (acts : List Action) :
    (∀ service,
      (run services acts).checker.check service = (ledger services acts).check service) ∧
    (∀ service, ((run services acts).checker.watch service).1 =
      if (ledger services acts).Knows service then
        .ok (ledger services acts).subscriptions.length
      else .error (unknownService service)) ∧
    (∀ (i : ℕ) (sub : Subscription), (ledger services acts).subscriptions[i]? = some sub →
      ∃ r, (ledger services acts).registrations[sub.registration]? = some r ∧
        sub.since < r.statuses.length ∧ WatcherLaw (run services acts) i r sub.since) ∧
    (∀ service, (ledger services acts).Knows service → ∀ status,
      (run services acts).checker.registerWithStatus service status =
        (false, (run services acts).checker)) ∧
    (∀ (i : ℕ) (r : Registration), (ledger services acts).registrations[i]? = some r →
      r.removed = true → ∀ more, (ledger services (acts ++ more)).registrations[i]? = some r) := by
  have h := attends_run services acts
  refine ⟨h.accounts.check, fun service => ?_, fun i sub hsub => h.watcherLaw hsub,
    fun service hknown status => h.accounts.register_known hknown status,
    fun i r hr hremoved more => ?_⟩
  · rw [h.accounts.watch, h.length]
  · obtain ⟨r', hr', -, hsame⟩ := (ledger services acts).keeps_notes more i r hr
    rw [ledger, Ledger.notes, List.foldl_append]
    rw [hsame hremoved] at hr'
    exact hr'

/-- The first status need not be the one that there was when the stream began. -/
theorem first_superseded :
    ¬ ∀ (services : List String) (acts : List Action) (i : ℕ) (sub : Subscription)
        (r : Registration) (v : Status),
      (ledger services acts).subscriptions[i]? = some sub →
      (ledger services acts).registrations[sub.registration]? = some r →
      ((run services acts).yielded i).head? = some v → r.statuses[sub.since]? = some v := by
  intro h
  have hfirst := h [] [.watch "", .setStatus "" .notServing, .pollNext 0] 0 ⟨0, 0⟩
    ⟨"", .serving, [.notServing], false⟩ .notServing (by decide) (by decide) (by decide)
  exact absurd hfirst (by decide)

end ConnectRpc.Health
