import Nexus.TextureSessions

namespace Nexus.RuntimeTextures

open StepRuns Textures

namespace CoordinatorWorld

variable {world next : CoordinatorWorld} {action : CoordinatorAction}

/-- A `get` answers what its identifier has resolved to before. -/
def Consistent : FacadeEvent → List FacadeEvent → Prop
  | .answered identifier answer, earlier =>
    ∀ record, .handed identifier record ∈ earlier → answer = some record
  | .handed .., _ => True

def retaining? (number : Nat) (world : CoordinatorWorld) : Option (String × TextureRecord) :=
  world.calls[number]?.bind fun call =>
    match call.phase with
    | .retaining _ identifier record => some (identifier, record)
    | _ => none

def missing? (number : Nat) (world : CoordinatorWorld) : Option String :=
  world.calls[number]?.bind fun call =>
    match call.phase with
    | .missing identifier => some identifier
    | _ => none

/-- The event does not give the identifier another record. -/
def Agrees (identifier : String) (record : TextureRecord) : FacadeEvent → Prop
  | .handed name other => name = identifier → other = record
  | .answered .. => True

instance (identifier : String) (record : TextureRecord) :
    DecidablePred (Agrees identifier record)
  | .handed name other => inferInstanceAs (Decidable (name = identifier → other = record))
  | .answered .. => isTrue trivial

/-- If the event handed out a record of the session, the table has the record's identifier. -/
def Tabled (id : Nat) (retained : String → Option TextureRecord) : FacadeEvent → Prop
  | .handed identifier record => record.session = id → (retained identifier).isSome
  | .answered .. => True

instance (id : Nat) (retained : String → Option TextureRecord) : DecidablePred (Tabled id retained)
  | .handed identifier record =>
    inferInstanceAs (Decidable (record.session = id → (retained identifier).isSome))
  | .answered .. => isTrue trivial

def resolves? : FacadeEvent → Option String
  | .handed identifier _ => some identifier
  | .answered .. => none

def Resolved (identifier : String) (world : CoordinatorWorld) : Prop :=
  ∃ event ∈ world.log, resolves? event = some identifier

instance (identifier : String) (world : CoordinatorWorld) : Decidable (world.Resolved identifier) :=
  inferInstanceAs (Decidable (∃ _ ∈ _, _))

/-- No route comes upon a second record of an identifier. An identifier that has resolved is in the
table when `get` falls back on the table, and when the service of its record is dropped. -/
def Lossless (world : CoordinatorWorld) : CoordinatorAction → Prop
  | .resume number _ => ∀ delivery ∈ world.delivering number,
    ∀ event ∈ world.log, Agrees delivery.1 delivery.2 event
  | .retain number => ∀ found ∈ world.retaining? number,
    ∀ event ∈ world.log, Agrees found.1 found.2 event
  | .lookup number => ∀ identifier ∈ world.missing? number,
    world.Resolved identifier → (world.retained identifier).isSome
  | .dropSession id => ∀ event ∈ world.log, Tabled id world.retained event
  | _ => True

instance (world : CoordinatorWorld) : DecidablePred (Lossless world)
  | .resume number _ => inferInstanceAs (Decidable (∀ delivery ∈ world.delivering number,
    ∀ event ∈ world.log, Agrees delivery.1 delivery.2 event))
  | .retain number => inferInstanceAs (Decidable (∀ found ∈ world.retaining? number,
    ∀ event ∈ world.log, Agrees found.1 found.2 event))
  | .lookup number => inferInstanceAs (Decidable (∀ identifier ∈ world.missing? number,
    world.Resolved identifier → (world.retained identifier).isSome))
  | .dropSession id =>
    inferInstanceAs (Decidable (∀ event ∈ world.log, Tabled id world.retained event))
  | .attach .. | .detach _ | .shutdown | .close _ | .retired _ | .call .. | .acquire _ | .enter _
  | .serve _ | .finish _ | .leave _ | .decode .. | .download .. => isTrue trivial

inductive Move (world : CoordinatorWorld) : CoordinatorAction → CoordinatorWorld → Prop
  | quiet {action : CoordinatorAction} {active : Option Nat} {calls : List TextureCall}
      {retiring : List Retirement} : Move world action { world with active, calls, retiring }
  | attached {action : CoordinatorAction} {thread : Nat} {config : TextureConfig}
      {retiring : List Retirement} {lifecycle : SessionLifecycle} :
      Move world action (withSession (world.nextAttachmentId + 1)
        ⟨thread, World.new config, lifecycle⟩
        { world with
          nextAttachmentId := world.nextAttachmentId + 1
          active := some (world.nextAttachmentId + 1)
          retiring })
  | entered {action : CoordinatorAction} {id : Nat} {session : ActiveTextureSession}
      {lifecycle : SessionLifecycle} {calls : List TextureCall} {retiring : List Retirement} :
      world.sessions id = some session →
      Move world action
        (withSession id { session with lifecycle } { world with calls, retiring })
  | served {action : CoordinatorAction} {id : Nat} {session : ActiveTextureSession}
      {inner : Action} {service : World} {calls : List TextureCall} :
      world.sessions id = some session → Textures.step session.service inner = some service →
      Move world action (withSession id { session with service } { world with calls })
  | delivered {number : Nat} {answers : Answers} {id call : Nat} {session : ActiveTextureSession}
      {inner : Action} {service : World} {identifier : String} {texture : TextureHandle} :
      world.sessions id = some session → Textures.step session.service inner = some service →
      session.service.delivered call = some (identifier, texture) →
      world.delivering number = some (identifier, ⟨id, texture⟩) →
      Move world (.resume number answers)
        (record [.handed identifier ⟨id, texture⟩] (withSession id { session with service } world))
  | dropped {id : Nat} : Move world (.dropSession id)
      { world with sessions := Function.update world.sessions id none }
  | retained {number : Nat} {guard : Option Nat} {identifier : String} {record : TextureRecord}
      {calls : List TextureCall} :
      world.retaining? number = some (identifier, record) →
      Move world (.retain number) (CoordinatorWorld.record (handing identifier record guard)
        { world with calls, retained := keep identifier record world.retained })
  | lookedUp {number : Nat} {identifier : String} {calls : List TextureCall} :
      world.missing? number = some identifier →
      Move world (.lookup number) (record [.answered identifier (world.retained identifier)]
        { world with calls })

variable {number : Nat}

theorem acquire_move (h : world.acquire number = some next) : Move world action next := by
  unfold acquire at h
  split at h
  · split at h
    · split at h <;> cases h <;> exact .quiet
    · cases h
  · cases h

theorem enter_move (h : world.enter number = some next) : Move world action next := by
  unfold enter at h
  split at h
  · split at h
    · obtain ⟨_, hsession, hnext⟩ := Option.map_eq_some_iff.mp h
      split at hnext
      · subst hnext
        exact .entered hsession
      · subst hnext
        exact .quiet
    · cases h
  · cases h

theorem serve_move (h : world.serve number = some next) : Move world action next := by
  unfold serve at h
  split at h
  · split at h
    · obtain ⟨_, hsession, hnext⟩ := Option.bind_eq_some_iff.mp h
      split at hnext
      · obtain ⟨_, hservice, rfl⟩ := Option.map_eq_some_iff.mp hnext
        exact .served hsession hservice
      · cases hnext
        exact .quiet
    · cases h
  · cases h

theorem resume_move {answers : Answers} (h : world.resume number answers = some next) :
    Move world (.resume number answers) next := by
  unfold resume at h
  split at h
  next hcall =>
    split at h
    next id inner hphase =>
      obtain ⟨session, hsession, hnext⟩ := Option.bind_eq_some_iff.mp h
      obtain ⟨service, hservice, rfl⟩ := Option.map_eq_some_iff.mp hnext
      have hdelivering : world.delivering number = (session.service.delivered inner).map
          fun delivery => (delivery.1, ⟨id, delivery.2⟩) := by
        unfold delivering
        rw [hcall, Option.bind_some, hphase]
        dsimp only
        rw [hsession, Option.bind_some]
      rcases hdelivered : session.service.delivered inner with _ | ⟨_, _⟩
      · rw [hdelivered] at hdelivering
        rw [hdelivering]
        exact .served hsession hservice
      · rw [hdelivered] at hdelivering
        have hmove := @Move.delivered world number answers _ _ _ _ _ _ _ hsession hservice
          hdelivered hdelivering
        rw [hdelivering]
        exact hmove
    · cases h
  · cases h

theorem finish_move (h : world.finish number = some next) : Move world action next := by
  unfold finish at h
  split at h
  · split at h
    · obtain ⟨_, _, hnext⟩ := Option.bind_eq_some_iff.mp h
      split at hnext <;> cases hnext <;> exact .quiet
    · cases h
  · cases h

theorem leave_move (h : world.leave number = some next) : Move world action next := by
  unfold leave at h
  split at h
  · split at h
    · obtain ⟨_, hsession, rfl⟩ := Option.map_eq_some_iff.mp h
      exact .entered hsession
    · cases h
  · cases h

theorem retain_move (h : world.retain number = some next) : Move world (.retain number) next := by
  unfold retain at h
  split at h
  next hcall =>
    split at h
    next hphase =>
      cases h
      refine .retained ?_
      unfold retaining?
      rw [hcall, Option.bind_some, hphase]
    · cases h
  · cases h

theorem lookup_move (h : world.lookup number = some next) : Move world (.lookup number) next := by
  unfold lookup at h
  split at h
  next hcall =>
    split at h
    next hphase =>
      cases h
      refine .lookedUp ?_
      unfold missing?
      rw [hcall, Option.bind_some, hphase]
    · cases h
  · cases h

theorem close_move {retirement : Nat} (h : world.close retirement = some next) :
    Move world action next := by
  unfold close at h
  split at h
  · obtain ⟨_, hsession, rfl⟩ := Option.map_eq_some_iff.mp h
    exact .entered hsession
  · cases h

theorem retired_move {retirement : Nat} (h : world.retired retirement = some next) :
    Move world action next := by
  unfold retired at h
  split at h <;> cases h
  exact .quiet

theorem dropSession_move {id : Nat} (h : world.dropSession id = some next) :
    Move world (.dropSession id) next := by
  unfold dropSession at h
  split at h <;> cases h
  exact .dropped

theorem work_move {id : Nat} {inner : Action} (h : world.work id inner = some next) :
    Move world action next := by
  obtain ⟨_, hsession, hnext⟩ := Option.bind_eq_some_iff.mp h
  obtain ⟨_, hservice, rfl⟩ := Option.map_eq_some_iff.mp hnext
  exact .served hsession hservice

theorem step_move (h : world.step action = some next) : Move world action next := by
  cases action with
  | attach =>
    cases h
    unfold attachService
    split
    · exact .quiet
    · exact .attached
  | detach =>
    cases h
    unfold detach
    split <;> exact .quiet
  | shutdown | call =>
    cases h
    exact .quiet
  | close => exact close_move h
  | retired => exact retired_move h
  | dropSession => exact dropSession_move h
  | acquire => exact acquire_move h
  | enter => exact enter_move h
  | serve => exact serve_move h
  | resume => exact resume_move h
  | finish => exact finish_move h
  | leave => exact leave_move h
  | retain => exact retain_move h
  | lookup => exact lookup_move h
  | decode | download => exact work_move h

/-- The sessions are numbered as they were attached, and their services back what they hand on. -/
structure Housed (nextAttachmentId : Nat) (sessions : Nat → Option ActiveTextureSession) : Prop where
  numbered : ∀ id session, sessions id = some session → id ≤ nextAttachmentId
  backed : ∀ id session, sessions id = some session → Backed session.service

variable {nextAttachmentId id : Nat} {sessions after : Nat → Option ActiveTextureSession}
  {session : ActiveTextureSession}

theorem Housed.replace (h : Housed nextAttachmentId sessions) {value : Option ActiveTextureSession}
    (hnew : ∀ found, value = some found → id ≤ nextAttachmentId ∧ Backed found.service) :
    Housed nextAttachmentId (Function.update sessions id value) where
  numbered other found hfound := by
    by_cases hother : other = id
    · rw [hother, Function.update_self] at hfound
      exact hother ▸ (hnew found hfound).1
    · rw [Function.update_of_ne hother] at hfound
      exact h.numbered other found hfound
  backed other found hfound := by
    by_cases hother : other = id
    · rw [hother, Function.update_self] at hfound
      exact (hnew found hfound).2
    · rw [Function.update_of_ne hother] at hfound
      exact h.backed other found hfound

theorem Housed.update (h : Housed nextAttachmentId sessions) (hid : id ≤ nextAttachmentId)
    (hbacked : Backed session.service) :
    Housed nextAttachmentId (Function.update sessions id (some session)) :=
  h.replace fun _ hfound => ⟨hid, Option.some.inj hfound ▸ hbacked⟩

theorem Housed.drop (h : Housed nextAttachmentId sessions) (id : Nat) :
    Housed nextAttachmentId (Function.update sessions id none) :=
  h.replace nofun

theorem Housed.attached (h : Housed nextAttachmentId sessions) :
    Housed (nextAttachmentId + 1) sessions where
  numbered other found hfound := (h.numbered other found hfound).trans (Nat.le_succ _)
  backed := h.backed

def Grows (sessions after : Nat → Option ActiveTextureSession) : Prop :=
  ∀ id session, sessions id = some session → ∃ later, after id = some later ∧
    ∀ texture, InRegistry session.service.state texture → InRegistry later.service.state texture

theorem grows_update {later : ActiveTextureSession} (hsession : sessions id = some session)
    (h : ∀ texture, InRegistry session.service.state texture →
      InRegistry later.service.state texture) :
    Grows sessions (Function.update sessions id (some later)) := by
  intro other found hfound
  by_cases hother : other = id
  · rw [hother, hsession] at hfound
    rw [← Option.some.inj hfound]
    exact ⟨later, by rw [hother, Function.update_self], h⟩
  · exact ⟨found, by rw [Function.update_of_ne hother, hfound], fun _ htexture => htexture⟩

theorem grows_new (hnew : sessions id = none) :
    Grows sessions (Function.update sessions id (some session)) := by
  intro other found hfound
  refine ⟨found, ?_, fun _ htexture => htexture⟩
  rw [Function.update_of_ne, hfound]
  rintro rfl
  rw [hnew] at hfound
  cases hfound

/-- The record is in the registry of its own session's service. -/
def InSession (sessions : Nat → Option ActiveTextureSession) (record : TextureRecord) : Prop :=
  ∃ session, sessions record.session = some session ∧
    InRegistry session.service.state record.texture

theorem InSession.grows {record : TextureRecord} (h : InSession sessions record)
    (hgrows : Grows sessions after) : InSession after record := by
  obtain ⟨session, hsession, htexture⟩ := h
  obtain ⟨later, hlater, hkeeps⟩ := hgrows _ session hsession
  exact ⟨later, hlater, hkeeps _ htexture⟩

/-- What the facade handed out is alive, in agreement with the table and with itself. -/
structure Kept (retained : String → Option TextureRecord)
    (sessions : Nat → Option ActiveTextureSession) (log : List FacadeEvent) : Prop where
  tabled : ∀ identifier record, retained identifier = some record →
    .handed identifier record ∈ log
  single : ∀ identifier record other, .handed identifier record ∈ log →
    .handed identifier other ∈ log → other = record
  alive : ∀ identifier record, .handed identifier record ∈ log →
    retained identifier = some record ∨ InSession sessions record
  consistent : EachEvent Consistent log

variable {retained : String → Option TextureRecord} {log : List FacadeEvent} {identifier : String}
  {record : TextureRecord}

theorem Kept.grows (h : Kept retained sessions log) (hgrows : Grows sessions after) :
    Kept retained after log where
  tabled := h.tabled
  single := h.single
  alive identifier record hhanded :=
    (h.alive identifier record hhanded).imp id fun hsession => hsession.grows hgrows
  consistent := h.consistent

theorem Kept.table_eq (h : Kept retained sessions log) (hhanded : .handed identifier record ∈ log)
    (htable : (retained identifier).isSome) : retained identifier = some record := by
  obtain ⟨found, hfound⟩ := Option.isSome_iff_exists.mp htable
  rw [hfound, h.single identifier record found hhanded (h.tabled identifier found hfound)]

theorem Kept.single_handed (h : Kept retained sessions log)
    (honly : ∀ other, .handed identifier other ∈ log → other = record) :
    ∀ name first second, FacadeEvent.handed name first ∈ .handed identifier record :: log →
      .handed name second ∈ FacadeEvent.handed identifier record :: log → second = first := by
  intro name first second hfirst hsecond
  rcases List.mem_cons.mp hfirst with hfirst | hfirst <;>
    rcases List.mem_cons.mp hsecond with hsecond | hsecond
  · cases hfirst
    cases hsecond
    rfl
  · cases hfirst
    exact honly second hsecond
  · cases hsecond
    exact (honly first hfirst).symm
  · exact h.single name first second hfirst hsecond

theorem Kept.handed (h : Kept retained sessions log)
    (honly : ∀ other, .handed identifier other ∈ log → other = record)
    (halive : retained identifier = some record ∨ InSession sessions record) :
    Kept retained sessions (.handed identifier record :: log) where
  tabled name found hfound := List.mem_cons_of_mem _ (h.tabled name found hfound)
  single := h.single_handed honly
  alive name found hfound := by
    rcases List.mem_cons.mp hfound with hfound | hfound
    · cases hfound
      exact halive
    · exact h.alive name found hfound
  consistent := ⟨trivial, h.consistent⟩

theorem Kept.answered (h : Kept retained sessions log) {answer : Option TextureRecord}
    (hanswer : ∀ record, .handed identifier record ∈ log → answer = some record) :
    Kept retained sessions (.answered identifier answer :: log) where
  tabled name found hfound := List.mem_cons_of_mem _ (h.tabled name found hfound)
  single name first second hfirst hsecond := by
    rcases List.mem_cons.mp hfirst with hfirst | hfirst
    · cases hfirst
    rcases List.mem_cons.mp hsecond with hsecond | hsecond
    · cases hsecond
    · exact h.single name first second hfirst hsecond
  alive name found hfound := by
    rcases List.mem_cons.mp hfound with hfound | hfound
    · cases hfound
    · exact h.alive name found hfound
  consistent := ⟨hanswer, h.consistent⟩

theorem keep_self (h : ∀ other, retained identifier = some other → other = record) :
    keep identifier record retained identifier = some record := by
  unfold keep
  split
  next hsome =>
    obtain ⟨other, hother⟩ := Option.isSome_iff_exists.mp hsome
    rw [hother, h other hother]
  next => exact Function.update_self ..

theorem keep_cases {name : String} {found : TextureRecord}
    (h : keep identifier record retained name = some found) :
    retained name = some found ∨ name = identifier ∧ found = record := by
  unfold keep at h
  split at h
  · exact Or.inl h
  · by_cases hname : name = identifier
    · rw [hname, Function.update_self] at h
      exact Or.inr ⟨hname, (Option.some.inj h).symm⟩
    · rw [Function.update_of_ne hname] at h
      exact Or.inl h

theorem keep_of_some {name : String} {found : TextureRecord} (h : retained name = some found) :
    keep identifier record retained name = some found := by
  unfold keep
  split
  · exact h
  next hnone =>
    have hname : name ≠ identifier := by
      rintro rfl
      rw [h] at hnone
      exact hnone rfl
    rw [Function.update_of_ne hname, h]

theorem Kept.keep (h : Kept retained sessions log)
    (honly : ∀ other, .handed identifier other ∈ log → other = record) :
    Kept (keep identifier record retained) sessions (.handed identifier record :: log) where
  tabled name found hfound := by
    rcases keep_cases hfound with hold | ⟨rfl, rfl⟩
    · exact List.mem_cons_of_mem _ (h.tabled name found hold)
    · exact List.mem_cons_self
  single := h.single_handed honly
  alive name found hfound := by
    rcases List.mem_cons.mp hfound with hfound | hfound
    · cases hfound
      exact Or.inl (keep_self fun other hother => honly other (h.tabled _ other hother))
    · exact (h.alive name found hfound).imp keep_of_some id
  consistent := ⟨trivial, h.consistent⟩

theorem Kept.dropped (h : Kept retained sessions log)
    (htable : ∀ identifier record, .handed identifier record ∈ log → record.session = id →
      (retained identifier).isSome) :
    Kept retained (Function.update sessions id none) log where
  tabled := h.tabled
  single := h.single
  alive identifier record hhanded := by
    by_cases hid : record.session = id
    · exact Or.inl (h.table_eq hhanded (htable identifier record hhanded hid))
    · refine (h.alive identifier record hhanded).imp (fun htabled => htabled) ?_
      rintro ⟨session, hsession, htexture⟩
      exact ⟨session, by rw [Function.update_of_ne hid, hsession], htexture⟩
  consistent := h.consistent

theorem only_of_agrees (h : ∀ event ∈ log, Agrees identifier record event) :
    ∀ other, .handed identifier other ∈ log → other = record :=
  fun _ hhanded => h _ hhanded rfl

theorem Move.kept (hmove : Move world action next) (hlossless : Lossless world action)
    (hhoused : Housed world.nextAttachmentId world.sessions)
    (h : Kept world.retained world.sessions world.log) :
    Kept next.retained next.sessions next.log := by
  cases hmove with
  | quiet => exact h
  | attached =>
    refine h.grows (grows_new ?_)
    rcases hnew : world.sessions (world.nextAttachmentId + 1) with _ | session
    · rfl
    · exact absurd (hhoused.numbered _ _ hnew) (by omega)
  | entered hsession => exact h.grows (grows_update hsession fun _ htexture => htexture)
  | served hsession hservice =>
    exact h.grows (grows_update hsession fun _ htexture =>
      (hhoused.backed _ _ hsession).inRegistry_step hservice htexture)
  | @delivered _ _ id _ session _ service _ _ hsession hservice hdelivered hdelivering =>
    have hbacked := hhoused.backed _ _ hsession
    have hgrows : Grows world.sessions
        (Function.update world.sessions id (some { session with service })) :=
      grows_update hsession fun _ htexture => hbacked.inRegistry_step hservice htexture
    have honly := only_of_agrees (hlossless _ hdelivering)
    refine (h.grows hgrows).handed honly (Or.inr ?_)
    exact InSession.grows ⟨session, hsession, hbacked.delivered hdelivered⟩ hgrows
  | dropped => exact h.dropped fun identifier record hhanded => hlossless _ hhanded
  | @retained _ guard identifier record _ hphase =>
    have hkept := h.keep (only_of_agrees (hlossless _ hphase))
    rcases guard with _ | id
    · refine hkept.answered fun other hother => ?_
      rw [hkept.single identifier record other List.mem_cons_self hother]
    · exact hkept
  | @lookedUp _ _ _ hphase =>
    refine h.answered fun record hhanded => ?_
    exact h.table_eq hhanded (hlossless _ hphase ⟨_, hhanded, rfl⟩)

def sourceAnswers : Answers := ⟨some none, some (.ok (.memory [1])), none, some 7⟩

/-- A thread loads a texture through the facade. The call and the session are numbered. -/
def loading (call session : Nat) (hasCallback : Bool) : List CoordinatorAction :=
  [.call 1 (.load "a" ⟨.host, false⟩ hasCallback), .acquire call, .enter call, .serve call,
    .resume call sourceAnswers, .resume call sourceAnswers, .finish call, .leave call,
    .decode session none (some pixel), .decode session none (some pixel),
    .decode session none (some pixel)]

def advancing (call callbacks : Nat) : List CoordinatorAction :=
  [.call 1 .advance, .acquire call, .enter call, .serve call] ++
    List.replicate (6 + callbacks) (.resume call sourceAnswers) ++ [.finish call, .leave call]

def dropping (session : Nat) : List CoordinatorAction :=
  [.detach session, .close 0, .retired 0, .dropSession session]

end CoordinatorWorld

end Nexus.RuntimeTextures
