import DriveLog.Proofs.Timeline.Memory
import DriveLog.Timeline.Report
set_option autoImplicit false

namespace DriveLog
namespace Timeline
variable {σ α β : Type}

def outcome (act : TimelineM σ α) (s : Linked σ) : Except TimelineError α :=
  match act s with
  | .ok a _ => .ok a
  | .error e _ => .error e

theorem outcome_eq_ok_iff {act : TimelineM σ α} {s : Linked σ} {a : α} :
    outcome act s = .ok a ↔ ∃ t, act s = .ok a t := by
  unfold outcome
  cases act s <;> simp

theorem outcome_eq_error_iff {act : TimelineM σ α} {s : Linked σ} {e : TimelineError} :
    outcome act s = .error e ↔ ∃ t, act s = .error e t := by
  unfold outcome
  cases act s <;> simp

variable [RecordStore σ] {store : σ} {links known : LinkCache}

/-- The links of one are among those of the other, and are right in both. -/
structure Ahead (store : σ) (links known : LinkCache) : Prop where
  left : Sound store links
  right : Sound store known
  grows : links.Grows known

theorem Sound.ahead (h : Sound store known) : Ahead store [] known :=
  ⟨sound_nil store, h, fun _ _ hget => by cases hget⟩

/-- The error of a walk along a chain that is longer than the limit. -/
def TooLong (store : σ) (limit : Nat) (e : TimelineError) : Prop :=
  ∃ origin n url, e = .badState (.endlessChain origin limit) ∧ limit < n ∧ ChainTo store n origin url

theorem Ahead.insertAll (h : Ahead store links known) {source : Source} {n m : Nat}
    {keys keys' : List String} {url : String} (hfinds : Finds store links n source keys url)
    (hfinds' : Finds store known m source keys' url) :
    Ahead store (links.insertAll keys url) (known.insertAll keys' url) := by
  have hsound := h.left.insertAll hfinds
  have hknown := h.right.insertAll hfinds'
  refine ⟨hsound, hknown, fun key url' hget => ?_⟩
  obtain ⟨other, rfl, hleads⟩ := hsound.leadsTo key url' hget
  refine hknown.get?_of_isSome hleads ?_
  rw [LinkCache.get?_insertAll] at hget
  split at hget
  · exact hknown.isSome_of_mem hfinds (by simp [hfinds'.get?_self]) _ ‹_›
  · simp [hfinds'.grows _ _ (h.grows _ _ hget)]

/-- An action that is given the limit, and that uses and changes the links by walks only. -/
inductive ByWalks (store : σ) : {α : Type} → (Nat → TimelineM σ α) → Prop
  | gives {α : Type} {act : Nat → TimelineM σ α} {a : α} (h : ∀ limit, Gives store (act limit) a) :
      ByWalks store act
  | refuses {α : Type} {act : Nat → TimelineM σ α} {e : TimelineError}
      (h : ∀ limit, Refuses store (act limit) e) : ByWalks store act
  | walk (source : Source) : ByWalks store fun limit => findLink limit source
  | bind {α β : Type} {act : Nat → TimelineM σ α} {next : α → Nat → TimelineM σ β}
      (h : ByWalks store act) (hnext : ∀ a, ByWalks store (next a)) :
      ByWalks store fun limit => act limit >>= fun a => next a limit

namespace ByWalks

theorem pure (a : α) : ByWalks store fun _ => (Pure.pure a : TimelineM σ α) :=
  .gives fun _ _ => rfl

theorem map {act : Nat → TimelineM σ α} (h : ByWalks store act) (f : α → β) :
    ByWalks store fun limit => f <$> act limit := by
  simp only [← bind_pure_comp]
  exact h.bind fun a => pure (f a)

theorem throw_bind (e : TimelineError) (next : Nat → α → TimelineM σ β) :
    ByWalks store fun limit => MonadExcept.throw e >>= next limit :=
  .refuses fun _ => Refuses.bind fun _ => rfl

theorem during {act : StoreM σ α} (h : Ends act store (fun _ t => t = store) fun _ t => t = store)
    (step : Step) : ByWalks store fun _ => Timeline.during step act := by
  cases hact : act store with
  | ok a t =>
    obtain rfl := h.of_eq_ok hact
    exact .gives fun _ => gives_during hact step
  | error e t =>
    obtain rfl := h.of_eq_error hact
    exact .refuses fun _ => refuses_during hact step

theorem mapM {f : α → Nat → TimelineM σ β} (h : ∀ a, ByWalks store (f a)) (l : List α) :
    ByWalks store fun limit => l.mapM fun a => f a limit := by
  induction l with
  | nil => exact pure []
  | cons a rest ih =>
    simp only [List.mapM_cons]
    exact (h a).bind fun b => ih.bind fun bs => pure (b :: bs)

/-- A value is found again, and nothing is learned, where all is known that was found for it. A failure
leaves what was found before it, and is met again there. -/
theorem settles {act : Nat → TimelineM σ α} (hact : ByWalks store act) (hstill : Still store)
    (limit : Nat) (links : LinkCache) :
    Ends (act limit) ⟨store, links⟩
      (fun a t => ∃ known, t = ⟨store, known⟩ ∧ links.Grows known ∧
        ∀ later, known.Grows later → act limit ⟨store, later⟩ = .ok a ⟨store, later⟩)
      (fun e t => ∃ known, t = ⟨store, known⟩ ∧ links.Grows known ∧
        act limit ⟨store, known⟩ = .error e ⟨store, known⟩) := by
  induction hact generalizing links with
  | gives h => exact .intro_ok (h limit links) ⟨links, rfl, .refl links, fun later _ => h limit later⟩
  | refuses h => exact .intro_error (h limit links) ⟨links, rfl, .refl links, h limit links⟩
  | walk source =>
    refine ends_findLink_of_walk hstill (fun keys url hfinds => ?_) fun e hmisses => ?_
    · -- the link of the source itself is known from now on
      refine ⟨_, rfl, hfinds.grows, fun later hgrows => ?_⟩
      have hget := hgrows _ _ hfinds.get?_self
      cases hfinds <;> exact follow_known hget
    · exact ⟨links, rfl, .refl links, findLink_of_misses hmisses⟩
  | bind _ _ ih ihnext =>
    refine ((ih links).mono (fun _ _ ha => ha) fun e t he => ?first).bind fun a t ha => ?_
    case first =>
      obtain ⟨known, rfl, hgrows, hagain⟩ := he
      exact ⟨known, rfl, hgrows, bind_of_eq_error hagain⟩
    obtain ⟨known, rfl, hgrows, hagain⟩ := ha
    refine (ihnext a known).mono (fun b u hb => ?_) fun e u he => ?_
    · obtain ⟨later, rfl, hlater, hagain'⟩ := hb
      refine ⟨later, rfl, hgrows.trans hlater, fun last hlast => ?_⟩
      exact (bind_of_eq_ok (hagain last (hlater.trans hlast))).trans (hagain' last hlast)
    · -- the first part is run again where the second one has failed
      obtain ⟨later, rfl, hlater, hagain'⟩ := he
      exact ⟨later, rfl, hgrows.trans hlater, (bind_of_eq_ok (hagain later hlater)).trans hagain'⟩

/-- With more links known the outcome is the same, unless a chain is too long with less. -/
theorem agrees {act : Nat → TimelineM σ α} (hact : ByWalks store act) (hstill : Still store)
    (limit : Nat) (h : Ahead store links known) :
    Ends (act limit) ⟨store, links⟩
      (fun a t => ∃ links' known', t = ⟨store, links'⟩ ∧
        act limit ⟨store, known⟩ = .ok a ⟨store, known'⟩ ∧ Ahead store links' known')
      (fun e _ => (∃ t, act limit ⟨store, known⟩ = .error e t) ∨ TooLong store limit e) := by
  induction hact generalizing links known with
  | gives ha => exact .intro_ok (ha limit links) ⟨links, known, rfl, ha limit known, h⟩
  | refuses he => exact .intro_error (he limit links) (.inl ⟨_, he limit known⟩)
  | walk source =>
    have hserved := finds_or_misses hstill known source limit limit source
    refine ends_findLink_of_walk hstill (fun keys url hfinds => ?_) fun e hmisses => ?_
    · rcases hserved with ⟨keys', url', hfinds'⟩ | ⟨e', hmisses'⟩
      · obtain rfl := (hfinds.leadsTo h.left).unique (hfinds'.leadsTo h.right)
        exact ⟨_, _, rfl, findLink_of_finds hfinds', h.insertAll hfinds hfinds'⟩
      · -- a walk that fails with more links known fails with less, too
        exact absurd (hmisses'.of_grows h.grows) hfinds.not_misses
    · rcases hserved with ⟨keys', url', hfinds'⟩ | ⟨e', hmisses'⟩
      · obtain ⟨n, hchain⟩ := hfinds'.leadsTo h.right
        obtain ⟨rfl, hlt⟩ := hmisses.endless_of_chainTo hchain
        exact .inr ⟨source, n, url', rfl, hlt, hchain⟩
      · obtain rfl := hmisses.unique (hmisses'.of_grows h.grows)
        exact .inl ⟨_, findLink_of_misses hmisses'⟩
  | bind _ _ ih ihnext =>
    refine ((ih h).mono (fun _ _ ha => ha) fun e t he => ?first).bind fun a t ha => ?_
    case first => exact he.imp_left fun ⟨u, hu⟩ => ⟨u, bind_of_eq_error hu⟩
    obtain ⟨links', known', rfl, hfirst, hahead⟩ := ha
    refine (ihnext a hahead).mono (fun b u hb => ?_) fun e u he => ?_
    · obtain ⟨links'', known'', rfl, hrest, hahead'⟩ := hb
      exact ⟨links'', known'', rfl, (bind_of_eq_ok hfirst).trans hrest, hahead'⟩
    · exact he.imp_left fun ⟨v, hv⟩ => ⟨v, (bind_of_eq_ok hfirst).trans hv⟩

theorem keeps {act : Nat → TimelineM σ α} (hact : ByWalks store act) (hstill : Still store)
    (limit : Nat) (h : Sound store links) :
    Ends (act limit) ⟨store, links⟩
      (fun a t => (∃ known, t = ⟨store, known⟩ ∧ Sound store known) ∧
        ∃ n, ∀ m ≥ n, ∀ known, Sound store known →
          ∃ later, act m ⟨store, known⟩ = .ok a ⟨store, later⟩ ∧ Sound store later)
      (fun _ t => ∃ known, t = ⟨store, known⟩ ∧ Sound store known) := by
  induction hact generalizing links with
  | gives ha =>
    exact .intro_ok (ha limit links) ⟨⟨links, rfl, h⟩, 0, fun m _ known hk => ⟨known, ha m known, hk⟩⟩
  | refuses he => exact .intro_error (he limit links) ⟨links, rfl, h⟩
  | walk source =>
    refine ends_findLink_of_walk hstill (fun keys url hfinds => ?_) fun e _ => ⟨links, rfl, h⟩
    obtain ⟨n, hchain⟩ := hfinds.leadsTo h
    refine ⟨⟨_, rfl, h.insertAll hfinds⟩, n, fun m hm known hk => ?_⟩
    obtain ⟨keys', hfinds'⟩ := hk.exists_finds hstill hchain hm
    exact ⟨_, findLink_of_finds hfinds', hk.insertAll hfinds'⟩
  | bind _ _ ih ihnext =>
    refine (ih h).bind fun a t ha => ?_
    obtain ⟨⟨known, rfl, hknown⟩, n, hfirst⟩ := ha
    refine (ihnext a hknown).imp fun b u hb => ⟨hb.1, ?_⟩
    obtain ⟨n', hrest⟩ := hb.2
    refine ⟨max n n', fun m hm other hother => ?_⟩
    obtain ⟨later, heq, hlater⟩ := hfirst m (by omega) other hother
    obtain ⟨last, heq', hlast⟩ := hrest m (by omega) later hlater
    exact ⟨last, (bind_of_eq_ok heq).trans heq', hlast⟩

end ByWalks

section questions

theorem byWalks_reportEvent (hstill : Still store) (trip event : String) :
    ByWalks store fun limit => reportEvent limit trip event := by
  unfold reportEvent
  refine (ByWalks.during (hstill.ends_fetch event) (.gettingEvent event)).bind fun e => ?_
  by_cases htype : e.type = .unknown
  · simp only [if_pos htype]
    exact .throw_bind _ _
  by_cases htime : e.time = 0
  · simp only [if_neg htype, if_pos htime]
    exact .throw_bind _ _
  simp only [if_neg htype, if_neg htime]
  exact (ByWalks.walk e.source).bind fun url => .pure _

theorem byWalks_resolveCondition (hstill : Still store) (condition : String) :
    ByWalks store fun limit => resolveCondition limit condition := by
  unfold resolveCondition
  refine (ByWalks.during (hstill.ends_fetch condition) (.gettingCondition condition)).bind fun c => ?_
  exact (ByWalks.walk c.source).bind fun url => .pure _

theorem byWalks_reportTrip (hstill : Still store) (T : Trip) :
    ByWalks store fun limit => reportTrip limit T := by
  unfold reportTrip
  refine (ByWalks.during (hstill.listIds _ _) (.listingEvents T.id)).bind fun eventIds => ?_
  refine (ByWalks.mapM (byWalks_reportEvent hstill T.id) eventIds).bind fun events => ?_
  refine (ByWalks.during (hstill.listIds _ _) (.listingConditions T.id)).bind fun conditionIds => ?_
  refine (ByWalks.mapM (byWalks_resolveCondition hstill) conditionIds).bind fun conditions => ?_
  exact .pure _

theorem byWalks_reportTrips (hstill : Still store) (user : String) (start stop : Int) :
    ByWalks store fun limit => reportTrips limit user start stop := by
  unfold reportTrips
  refine (ByWalks.during (hstill.listIds _ _) (.listingTripsOf user)).bind fun ids => ?_
  refine (ByWalks.mapM (fun id => ?_) ids).bind fun trips => ?_
  · exact ByWalks.during (hstill.ends_fetch id) (.gettingTrip id)
  · exact ByWalks.mapM (byWalks_reportTrip hstill) _

/-- What is asked about a source, about a trip, or about the trips of a user that touch a stretch. -/
inductive Question where
  | link (source : Source)
  | trip (T : Trip)
  | trips (user : String) (start stop : Int)
  deriving DecidableEq, Repr

inductive Reply where
  | link (url : String)
  | trip (report : TripReport)
  | trips (reports : List TripReport)
  deriving DecidableEq, Repr

def reply (limit : Nat) : Question → TimelineM σ Reply
  | .link source => .link <$> findLink limit source
  | .trip T => .trip <$> reportTrip limit T
  | .trips user start stop => .trips <$> reportTrips limit user start stop

theorem byWalks_reply (hstill : Still store) (question : Question) :
    ByWalks store fun limit => reply limit question := by
  cases question with
  | link source => exact (ByWalks.walk source).map Reply.link
  | trip T => exact (byWalks_reportTrip hstill T).map Reply.trip
  | trips user start stop => exact (byWalks_reportTrips hstill user start stop).map Reply.trips

def after (limit : Nat) (s : Linked σ) (question : Question) : Linked σ :=
  match reply limit question s with
  | .ok _ t => t
  | .error _ t => t

/-- What some questions, asked one after the other, have left; at first no link is known. -/
def served (limit : Nat) (asked : List Question) (store : σ) : Linked σ :=
  asked.foldl (after limit) ⟨store, []⟩

theorem served_sound (hstill : Still store) (limit : Nat) (asked : List Question) :
    ∃ known, served limit asked store = ⟨store, known⟩ ∧ Sound store known := by
  have hfrom : ∀ links, Sound store links →
      ∃ known, asked.foldl (after limit) ⟨store, links⟩ = ⟨store, known⟩ ∧ Sound store known := by
    -- by induction on the questions: each of them keeps the links right
    induction asked with
    | nil => exact fun links h => ⟨links, rfl, h⟩
    | cons question rest ih =>
      intro links h
      have hkeeps := (byWalks_reply hstill question).keeps hstill limit h
      rw [List.foldl_cons, after]
      cases hreply : reply limit question ⟨store, links⟩ with
      | ok a t =>
        obtain ⟨⟨known, rfl, hknown⟩, -⟩ := hkeeps.of_eq_ok hreply
        exact ih known hknown
      | error e t =>
        obtain ⟨known, rfl, hknown⟩ := hkeeps.of_eq_error hreply
        exact ih known hknown
  exact hfrom [] (sound_nil store)

def sampleChain : Repository where
  table := [(⟨.rawVideo, "v"⟩, .rawVideo ⟨"v", "ann", 1, 9, "drive.mp4"⟩),
    (⟨.rawMotion, "m"⟩, .rawMotion ⟨"m", "ann", 2, ⟨0⟩, ⟨0⟩, some ⟨.rawVideo, "v"⟩⟩),
    (⟨.rawLocation, "l"⟩, .rawLocation ⟨"l", "ann", 2, ⟨⟨0⟩, ⟨0⟩⟩, some ⟨.rawMotion, "m"⟩⟩)]
  writesLeft := none
  idAt := Repository.unaryId
  created := 0

/-- A question that is asked again is answered the same, whatever links are known, and nothing is
learned from it. -/
theorem reply_again (hstill : Still store) (limit : Nat) (question : Question) (links : LinkCache) :
    Ends (reply limit question) ⟨store, links⟩
      (fun a t => t.store = store ∧ reply limit question t = .ok a t)
      (fun e t => t.store = store ∧ reply limit question t = .error e t) := by
  refine ((byWalks_reply hstill question).settles hstill limit links).mono
    (fun a t ha => ?_) fun e t he => ?_
  · obtain ⟨known, rfl, -, hagain⟩ := ha
    exact ⟨rfl, hagain known (.refl known)⟩
  · obtain ⟨known, rfl, -, hagain⟩ := he
    exact ⟨rfl, hagain⟩

def sampleTrip (source : Source) : Repository :=
  { sampleChain with table := sampleChain.table ++
      [(⟨.trip, "t"⟩, .trip ⟨"t", "ann", 2, 5⟩),
        (⟨.event, "e"⟩, .event ⟨"e", "ann", "t", 4, .laneChange, ⟨0⟩, ⟨0⟩, ⟨.rawLocation, "l"⟩⟩),
        (⟨.drivingCondition, "c"⟩, .drivingCondition ⟨"c", "ann", "t", .rain, ⟨0⟩, 2, 5, source⟩)] }

/-- A known link that is not that of the chain is told again. Where the video of the condition is missing,
the report fails again with the links that it has found for the event. -/
theorem reply_again_of_sample :
    Still (sampleTrip ⟨.rawVideo, "v"⟩) ∧ Still (sampleTrip ⟨.rawVideo, "w"⟩) ∧
      (∃ report t, reply 2 (.trips "ann" 0 9)
            ⟨sampleTrip ⟨.rawVideo, "v"⟩, [("RAW_MOTION/m", "old.mp4")]⟩ = .ok (.trips [report]) t ∧
          report.events.map ReportedEvent.url = ["old.mp4"] ∧
          t.links = [("RAW_MOTION/m", "old.mp4"), ("RAW_LOCATION/l", "old.mp4"),
            ("RAW_VIDEO/v", "drive.mp4")] ∧
          reply 2 (.trips "ann" 0 9) t = .ok (.trips [report]) t) ∧
      ∃ e t, reply 3 (.trips "ann" 0 9) ⟨sampleTrip ⟨.rawVideo, "w"⟩, []⟩ = .error e t ∧
        t.links.length = 3 ∧ reply 3 (.trips "ann" 0 9) t = .error e t := by
  have hagain := reply_again (sampleTrip ⟨.rawVideo, "v"⟩).still 2 (.trips "ann" 0 9)
    [("RAW_MOTION/m", "old.mp4")]
  have hfails := reply_again (sampleTrip ⟨.rawVideo, "w"⟩).still 3 (.trips "ann" 0 9) []
  exact ⟨(sampleTrip _).still, (sampleTrip _).still, ⟨_, _, rfl, rfl, rfl, hagain.2⟩,
    _, _, rfl, rfl, hfails.2⟩

/-- What is known of links is right: each key is that of one source and has the link of its video, and
what is found is the link of the video that the source leads to. A search that fails learns nothing,
and what is found where nothing is known is found here. -/
structure Reliable (store : σ) (limit : Nat) (s : Linked σ) : Prop where
  known : ∀ key url, s.links.get? key = some url →
    ∃ source : Source, (∀ other : Source, other.key = key ↔ other = source) ∧ LeadsTo store source url
  found : ∀ source url t, findLink limit source s = .ok url t → LeadsTo store source url
  failed : ∀ source e t, findLink limit source s = .error e t → t = s
  resolved : ∀ source url t, findLink limit source ⟨store, []⟩ = .ok url t →
    ∃ t', findLink limit source s = .ok url t'

theorem served_reliable (hstill : Still store) (limit : Nat) (asked : List Question) :
    Reliable store limit (served limit asked store) := by
  obtain ⟨known, heq, hsound⟩ := served_sound hstill limit asked
  rw [heq]
  constructor
  case known =>
    intro key url hget
    obtain ⟨source, rfl, hleads⟩ := hsound.leadsTo key url hget
    exact ⟨source, fun other => Source.key_injective.eq_iff, hleads⟩
  case found => exact fun source url t h => (ends_findLink_still hstill hsound limit source).of_eq_ok h
  case failed => exact fun source e t h => (ends_findLink_still hstill hsound limit source).of_eq_error h
  case resolved =>
    intro source url t h
    obtain ⟨_, known', -, hfound, -⟩ :=
      ((ByWalks.walk source).agrees hstill limit hsound.ahead).of_eq_ok h
    exact ⟨_, hfound⟩

theorem served_reliable_of_sample :
    Still sampleChain ∧ LeadsTo sampleChain ⟨.rawLocation, "l"⟩ "drive.mp4" ∧
      ∃ source : Source, (∀ other : Source, other.key = "RAW_MOTION/m" ↔ other = source) ∧
        LeadsTo sampleChain source "drive.mp4" := by
  have hreliable := served_reliable sampleChain.still 2 [.link ⟨.rawMotion, "m"⟩]
  exact ⟨sampleChain.still, hreliable.found ⟨.rawLocation, "l"⟩ _ _ rfl,
    hreliable.known "RAW_MOTION/m" _ rfl⟩

/-- Questions that were asked before do not change an answer, unless it is that a chain is longer than
the limit. Where there is an answer, it is the one of a limit that is high enough. -/
theorem served_answers (hstill : Still store) (limit : Nat) (asked : List Question)
    (question : Question) :
    (outcome (reply limit question) (served limit asked store) =
        outcome (reply limit question) ⟨store, []⟩ ∨
      ∃ e, outcome (reply limit question) ⟨store, []⟩ = .error e ∧ TooLong store limit e) ∧
    ∀ a, outcome (reply limit question) (served limit asked store) = .ok a →
      ∃ m ≥ limit, outcome (reply m question) ⟨store, []⟩ = .ok a := by
  obtain ⟨known, heq, hsound⟩ := served_sound hstill limit asked
  rw [heq]
  constructor
  · have hagrees := (byWalks_reply hstill question).agrees hstill limit hsound.ahead
    cases hreply : reply limit question ⟨store, []⟩ with
    | ok a t =>
      obtain ⟨_, _, -, hserved, -⟩ := hagrees.of_eq_ok hreply
      left
      rw [outcome_eq_ok_iff.mpr ⟨_, hserved⟩, outcome_eq_ok_iff.mpr ⟨_, hreply⟩]
    | error e t =>
      have herror := outcome_eq_error_iff.mpr ⟨_, hreply⟩
      rcases hagrees.of_eq_error hreply with ⟨u, hserved⟩ | htoo
      · exact .inl ((outcome_eq_error_iff.mpr ⟨u, hserved⟩).trans herror.symm)
      · exact .inr ⟨e, herror, htoo⟩
  · intro a ha
    obtain ⟨t, hreply⟩ := outcome_eq_ok_iff.mp ha
    obtain ⟨-, n, hfound⟩ :=
      ((byWalks_reply hstill question).keeps hstill limit hsound).of_eq_ok hreply
    obtain ⟨later, hfresh, -⟩ := hfound (max limit n) (by omega) [] (sound_nil store)
    exact ⟨max limit n, by omega, outcome_eq_ok_iff.mpr ⟨_, hfresh⟩⟩

theorem served_answers_of_sample :
    Still sampleChain ∧
      outcome (reply 2 (.link ⟨.rawLocation, "l"⟩)) (served 2 [.link ⟨.rawMotion, "m"⟩] sampleChain) =
        .ok (.link "drive.mp4") ∧
      ∃ m ≥ 2, outcome (reply m (.link ⟨.rawLocation, "l"⟩)) ⟨sampleChain, []⟩ =
        .ok (.link "drive.mp4") :=
  ⟨sampleChain.still, rfl, (served_answers sampleChain.still 2 [.link ⟨.rawMotion, "m"⟩] _).2 _ rfl⟩

/-- Questions that were asked before can make an answer out of a failure. -/
theorem served_not_transparent :
    ¬ ∀ (store : Repository) (limit : Nat) (asked : List Question) (question : Question) (a : Reply),
      outcome (reply limit question) (served limit asked store) = .ok a ↔
        outcome (reply limit question) ⟨store, []⟩ = .ok a := by
  intro h
  have hfresh := (h sampleChain 2 [.link ⟨.rawMotion, "m"⟩] (.link ⟨.rawLocation, "l"⟩)
    (.link "drive.mp4")).mp rfl
  have herror : outcome (reply 2 (.link ⟨.rawLocation, "l"⟩)) ⟨sampleChain, []⟩ =
      .error (.badState (.endlessChain ⟨.rawLocation, "l"⟩ 2)) := rfl
  rw [herror] at hfresh
  cases hfresh

end questions

end Timeline
end DriveLog
