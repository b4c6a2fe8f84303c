import Membrane.Proofs.Handles
import Membrane.Session.Running

/-!
# Steps of a session as turns

Every computation of a session comes down to turns (`SessionM.Turns`). There is one lemma for each
command, in the order in which the commands are built on each other; script operations are all of
one kind, since none of them opens a context or takes or lets go a handle.
-/

namespace Membrane

/-! ## Script operations -/

section Script

variable {σ α : Type}

/-- The operation leaves everything of contexts but what they remember. -/
def ScriptM.IsSteady (act : ScriptM σ α) : Prop :=
  ∀ w c, ((act.on w).2.context? c).map Context.standing = (w.context? c).map Context.standing

/-- All contexts and objects. -/
def Scope.all : Scope := ⟨fun _ => True, fun _ => True⟩

theorem ScriptM.attempt_isSteady (act : HostM σ α) : IsSteady (attempt act) := fun _ _ => rfl

variable [Host σ]

theorem ScriptM.isSteady_of_staysIn {act : ScriptM σ α} (h : ∀ w, StaysIn .all act w) :
    act.IsSteady := fun w => (h w).standing

namespace ScriptM.StaysIn

variable {w : World σ}

theorem fail (f : Fault) : StaysIn .all (ScriptM.fail f : ScriptM σ α) w := throw _

theorem allocate (object : ScriptObject) : StaysIn .all (ScriptM.allocate object : ScriptM σ _) w :=
  World.Confined.push object

/-- The own part of an object is replaced by what it is turned into. -/
theorem edit (id : ObjectId) (f : Store → Store) :
    StaysIn .all (do ScriptM.setStore id (f (← ScriptM.store id)) : ScriptM σ Unit) w :=
  World.Confined.setStore trivial _

theorem remember (context : Option ContextId) (key : Identity) (kind : EntryKind)
    (content : kind.Content) :
    StaysIn .all (Membrane.remember context key kind (Pure.pure content) : ScriptM σ _) w := by
  unfold StaysIn
  rw [on_remember context key ⟨kind, content⟩]
  cases w.known? context key kind with
  | some content => exact .note rfl
  | none => exact (World.Confined.keep (fun _ _ => trivial) key _).trans (.note rfl)

/-- Where all contexts are in the scope, a look-up needs no sound world. -/
theorem lookUp (id : ObjectId) (key : PropertyKey) : StaysIn .all (id.get? key) w :=
  reading (firstAlong fun _ _ _ _ => getOwn (fun _ _ _ _ => trivial) key)

theorem ids (id : ObjectId) : StaysIn .all (id.ids) w := by
  refine reading ?_
  dsimp only
  split
  · split <;> exact pure _
  · exact pure _
  · exact pure _

/-! ### Any value -/

variable (value : ScriptValue)

theorem valueGet (key : PropertyKey) : StaysIn .all (value.get key) w := by
  cases value with
  | object id => exact (lookUp id key).bind fun _ _ _ _ => pure _
  | _ => exact viewing (fail _)

theorem valueHas (key : PropertyKey) : StaysIn .all (value.has key) w := by
  cases value with
  | object id => exact has id key
  | _ => exact viewing (fail _)

theorem valuePut (key : PropertyKey) (content : ScriptValue) :
    StaysIn .all (value.put key content) w := by
  cases value with
  | object id => exact put trivial key content
  | _ => exact viewing (fail _)

theorem valueCall (context : Option ContextId) (realm : Option Realm) (this : ScriptValue)
    (args : List ScriptValue) : StaysIn .all (value.call context realm this args) w := by
  refine viewing ?_
  cases value with
  | object id =>
    dsimp only
    split
    · exact call (fun _ _ => trivial) id realm this args
    · exact fail _
  | _ => exact fail _

theorem callMethod (name : String) (context : Option ContextId) (realm : Option Realm)
    (args : List ScriptValue) : StaysIn .all (value.callMethod name context realm args) w :=
  (valueGet value (.name name)).bind fun f _ _ _ => valueCall f context realm value args

theorem valueConstruct (context : Option ContextId) (realm : Option Realm)
    (args : List ScriptValue) : StaysIn .all (value.construct context realm args) w := by
  cases value with
  | object id => exact construct (fun _ _ => trivial) id realm args
  | _ => exact viewing (fail _)

theorem isInstanceOf (hostClass : ScriptValue) :
    StaysIn .all (value.isInstanceOf hostClass) w := by
  cases hostClass with
  | object id => exact hasInstance id value
  | _ => exact viewing (fail _)

theorem caught (e : ScriptError) (realm : Option Realm) : StaysIn .all (e.caught realm) w := by
  cases e with
  | thrown value => exact pure value
  | fault f => exact (allocate _).bind fun _ _ _ _ => pure _
  | reported kind message => exact (allocate _).bind fun _ _ _ _ => pure _

theorem makeRealm : StaysIn .all (Realm.make : ScriptM σ Realm) w :=
  (allocate _).bind fun _ _ _ _ => (allocate _).bind fun _ _ _ _ =>
    (allocate _).bind fun _ _ _ _ => pure _

end ScriptM.StaysIn

end Script

/-! ## Computations of a session -/

/-- The outcome of a computation and the session that it leaves. -/
def SessionM.on {α : Type} (act : SessionM α) (s : Session) : Except Failure α × Session :=
  act.run.run s

/-- Whatever a computation does comes down to turns. -/
def SessionM.Turns {α : Type} (act : SessionM α) : Prop :=
  ∀ s, Relation.ReflTransGen Session.Turn s (act.on s).2

namespace SessionM

variable {α β : Type}

theorem on_bind (act : SessionM α) (next : α → SessionM β) (s : Session) :
    (act >>= next).on s = match act.on s with
      | (.ok a, s') => (next a).on s'
      | (.error e, s') => (.error e, s') := by
  show (match act s with | (r, s') => ExceptT.bindCont next r s') = _
  unfold on
  show _ = match act s with
    | (.ok a, s') => (next a) s'
    | (.error e, s') => (.error e, s')
  cases act s with
  | mk r s' => cases r <;> rfl

theorem on_get_bind (next : Session → SessionM β) (s : Session) :
    (MonadState.get >>= next : SessionM β).on s = (next s).on s := rfl

theorem on_tryCatch (act : SessionM α) (handler : Failure → SessionM α) (s : Session) :
    (MonadExcept.tryCatch act handler : SessionM α).on s = match act.on s with
      | (.ok a, s') => (.ok a, s')
      | (.error e, s') => (handler e).on s' := by
  unfold on
  show (ExceptT.tryCatch act handler) s = match act s with
    | (.ok a, s') => (.ok a, s')
    | (.error e, s') => (handler e) s'
  simp only [ExceptT.tryCatch, ExceptT.mk]
  show StateT.bind _ _ s = _
  rw [StateT.bind]
  cases act s with
  | mk r s' => cases r <;> rfl

theorem on_script (act : ScriptM Catalog α) (s : Session) :
    ((script act).on s).2 = { s with world := (act.on s.world).2 } := by
  rw [script, on_get_bind]
  unfold ScriptM.on
  obtain ⟨outcome, w⟩ := act.run.run s.world
  cases outcome <;> rfl

namespace Turns

theorem pure (a : α) : Turns (Pure.pure a : SessionM α) := fun _ => .refl

theorem throw (e : Failure) : Turns (MonadExcept.throw e : SessionM α) := fun _ => .refl

theorem bind {act : SessionM α} {next : α → SessionM β} (h : Turns act)
    (hnext : ∀ a, Turns (next a)) : Turns (act >>= next) := by
  intro s
  have hs := h s
  rw [on_bind]
  match hact : act.on s, hs with
  | (.ok a, s'), hs => exact hs.trans (hnext a s')
  | (.error e, s'), hs => exact hs

theorem map {act : SessionM α} (h : Turns act) (f : α → β) : Turns (f <$> act) := by
  rw [map_eq_pure_bind]
  exact h.bind fun a => pure (f a)

theorem reading {next : Session → SessionM β} (h : ∀ s, Turns (next s)) :
    Turns (MonadState.get >>= next) := fun s => h s s

theorem require (a : Option α) : Turns (require a) := by
  cases a with
  | none => exact throw _
  | some a => exact pure a

theorem mapM {f : α → SessionM β} (hf : ∀ a, Turns (f a)) (l : List α) : Turns (l.mapM f) := by
  induction l with
  | nil => exact pure []
  | cons a l ih =>
    rw [List.mapM_cons]
    exact (hf a).bind fun b => ih.bind fun bs => pure (b :: bs)

theorem optional {f : α → SessionM β} (hf : ∀ a, Turns (f a)) (a : Option α) :
    Turns (a.mapM f) := by
  cases a with
  | none => exact pure none
  | some a => exact (hf a).map some

/-- The registers of contexts, the stack and the handles stay as they are. -/
theorem steadily {f : Session → Session} (contexts : ∀ s, (f s).contexts = s.contexts)
    (stack : ∀ s, (f s).stack = s.stack) (world : ∀ s, (f s).world = s.world) :
    Turns (modify f : SessionM PUnit) := fun s =>
  .single (.steady (contexts s) (stack s) fun c => by
    show ((f s).world.context? c).map _ = _
    rw [world])

theorem script {act : ScriptM Catalog α} (h : act.IsSteady) : Turns (script act) := by
  intro s
  rw [on_script]
  exact .single (.steady rfl rfl (h s.world))

theorem host (act : HostM Catalog α) : Turns (host act) := by
  refine (script (ScriptM.attempt_isSteady act)).bind fun outcome => ?_
  cases outcome with
  | error e => exact throw _
  | ok a => exact pure a

theorem catching {act : SessionM α} {handler : Failure → SessionM α} (h : Turns act)
    (hhandler : ∀ e, Turns (handler e)) : Turns (MonadExcept.tryCatch act handler) := by
  intro s
  have hs := h s
  rw [on_tryCatch]
  match hact : act.on s, hs with
  | (.ok a, s'), hs => exact hs
  | (.error e, s'), hs => exact hs.trans (hhandler e s')

theorem observed {act : SessionM α} (h : Turns act) : Turns (observing act) :=
  catching (h.bind fun _ => pure _) fun _ => pure _

/-! ### Terms -/

theorem scriptValue (term : ScriptTerm) : Turns (SessionM.scriptValue term) := by
  cases term with
  | value v => exact pure v
  | register name => exact reading fun _ => require _

theorem hostValue (term : HostTerm) : Turns (SessionM.hostValue term) := by
  cases term with
  | value v => exact pure v
  | register name => exact reading fun _ => require _
  | script term => exact (scriptValue term).bind fun _ => pure _

theorem view : Turns SessionM.view := reading fun _ => pure _

theorem object (term : ScriptTerm) : Turns (SessionM.object term) :=
  (scriptValue term).bind fun _ => require _

theorem ordinary (term : ScriptTerm) : Turns (SessionM.ordinary term) := by
  refine (object term).bind fun id => reading fun s => ?_
  split
  · exact pure id
  · exact throw _

theorem hostObject (term : HostTerm) : Turns (SessionM.hostObject term) := by
  refine (hostValue term).bind fun value => ?_
  split
  · exact pure _
  · exact throw _

theorem callable (term : HostTerm) : Turns (SessionM.callable term) := by
  refine (hostValue term).bind fun value => ?_
  split
  · exact pure _
  · exact throw _

theorem hostClass (term : HostTerm) : Turns (SessionM.hostClass term) := by
  refine (hostValue term).bind fun value => ?_
  split
  · exact pure _
  · exact throw _

theorem policy (name : Option String) : Turns (SessionM.policy name) := by
  cases name with
  | none => exact reading fun _ => pure _
  | some name => exact reading fun _ => require _

theorem context (name : String) : Turns (SessionM.context name) := by
  refine reading fun s => (require _).bind fun r => ?_
  split
  · exact pure _
  · exact throw _

theorem context? (name : Option String) : Turns (SessionM.context? name) := optional context name

theorem realm? (name : Option String) : Turns (SessionM.realm? name) :=
  optional (fun _ => reading fun _ => require _) name

theorem error (term : ErrorTerm) : Turns (SessionM.error term) := by
  cases term with
  | native kind message => exact pure _
  | thrown term => exact (scriptValue term).bind fun _ => pure _

/-! ### Host code as described -/

theorem resolve (action : Action HostTerm) : Turns action.resolve := by
  cases action with
  | const term => exact (hostValue term).bind fun _ => pure _
  | _ => exact pure _

theorem define (label : Option String) (role : Role) : Turns (SessionM.define label role) := host _

theorem defineMethod (m : MethodTerm) (owner : String) (type : Option HostType) :
    Turns (SessionM.defineMethod m owner type) := by
  refine (resolve m.action).bind fun action => (define _ _).bind fun code => ?_
  dsimp only
  split
  · exact ((host _).map _).bind fun _ => pure _
  · exact (pure _).bind fun _ => pure _

theorem defineProfile (type : HostType) (object : ObjectTerm) :
    Turns (SessionM.defineProfile type object) :=
  (mapM (fun m => defineMethod m type.word (some type)) _).bind fun _ =>
    (mapM (fun (_, term) => (hostValue term).bind fun _ => pure _) _).bind fun _ => pure _

theorem makeObject (type : HostType) (object : ObjectTerm) :
    Turns (SessionM.makeObject type object) :=
  (defineProfile type object).bind fun _ => host _

theorem makeFunction (name : Option String) (arity : Arity) (action : Action HostTerm) :
    Turns (SessionM.makeFunction name arity action) :=
  (resolve action).bind fun _ => (define _ _).bind fun _ => (host _).bind fun _ => pure _

theorem makeMethod (type : Option HostType) (m : MethodTerm) :
    Turns (SessionM.makeMethod type m) :=
  (defineMethod m _ type).bind fun _ => (host _).bind fun _ => pure _

theorem makeClass (term : ClassTerm) : Turns (SessionM.makeClass term) := by
  cases term with
  | factory type name arity parameters object failure =>
    exact (defineProfile type object).bind fun _ => (define _ _).bind fun _ =>
      (pure _).bind fun _ => host _
  | custom name arity action instances statics =>
    exact (resolve action).bind fun _ => (define _ _).bind fun _ =>
      (mapM (fun m => defineMethod _ name none) statics).bind fun _ =>
        (pure _).bind fun _ => host _

/-! ### Registers of contexts and the stack -/

/-- Letting go what a register holds leaves a register that holds nothing. -/
theorem on_letGo (name : String) (s : Session) :
    ∃ s', (SessionM.letGo name).on s = (.ok (), s') ∧ Relation.ReflTransGen Session.Turn s s' ∧
      ∀ c, ¬ Registers.Holds s'.contexts c name := by
  rw [SessionM.letGo, on_get_bind]
  cases hlookup : s.contexts.lookup name with
  | none =>
    refine ⟨s, rfl, .refl, fun c => ?_⟩
    rw [Registers.Holds, hlookup]
    simp
  | some r =>
    obtain ⟨id, held⟩ := r
    cases held with
    | false =>
      refine ⟨s, rfl, .refl, fun c => ?_⟩
      rw [Registers.Holds, hlookup]
      simp
    | true =>
      refine ⟨_, rfl, .single (.dropped name id hlookup), fun c => ?_⟩
      rw [Registers.holds_cons, if_pos rfl]
      simp

theorem letGo (name : String) : Turns (SessionM.letGo name) := by
  intro s
  obtain ⟨s', hrun, hturns, -⟩ := on_letGo name s
  rw [hrun]
  exact hturns

theorem openContext (name : String) (policy : Policy) :
    Turns (SessionM.openContext name policy) := by
  intro s
  obtain ⟨s', hrun, hturns, hfree⟩ := on_letGo name s
  rw [SessionM.openContext, on_bind, hrun]
  exact hturns.tail (.opened name policy hfree)

theorem runningName : Turns SessionM.runningName := reading fun _ => pure _

theorem revive (name : String) : Turns (SessionM.revive name) := by
  intro s
  show Relation.ReflTransGen Session.Turn s
    ((SessionM.require (s.contexts.lookup name) >>= fun r => _ : SessionM Outcome).on s).2
  cases hlookup : s.contexts.lookup name with
  | none => exact .refl
  | some r =>
    obtain ⟨id, held⟩ := r
    show Relation.ReflTransGen Session.Turn s
      ((if s.world.isAlive id then _ else _ : SessionM Outcome).on s).2
    by_cases halive : s.world.isAlive id = true
    · rw [if_pos halive]
      cases held with
      | true => exact .refl
      | false =>
        have hfree : ∀ c, ¬ Registers.Holds s.contexts c name := by
          intro c
          rw [Registers.Holds, hlookup]
          simp
        exact .single (.revived name id halive hfree)
    · rw [if_neg halive]
      exact .refl

theorem pop : Turns SessionM.pop := by
  intro s
  obtain ⟨world, scripts, hosts, policies, realms, contexts, names, stack⟩ := s
  cases stack with
  | nil => exact .refl
  | cons id rest => exact .single (.popped id rest rfl)

theorem push (name : String) : Turns (SessionM.runShared (.push name)) := by
  intro s
  show Relation.ReflTransGen Session.Turn s
    ((SessionM.context name >>= fun id => _ : SessionM Outcome).on s).2
  cases hlookup : s.contexts.lookup name with
  | none =>
    have hcontext : (SessionM.context name).on s = (.error .senseless, s) := by
      show (SessionM.require (s.contexts.lookup name) >>= fun r => _ : SessionM ContextId).on s = _
      rw [hlookup]
      rfl
    rw [on_bind, hcontext]
  | some r =>
    obtain ⟨id, held⟩ := r
    have hcontext : (SessionM.context name).on s =
        (if held then .ok id else .error .senseless, s) := by
      show (SessionM.require (s.contexts.lookup name) >>= fun r => _ : SessionM ContextId).on s = _
      rw [hlookup]
      cases held <;> rfl
    rw [on_bind, hcontext]
    cases held with
    | true => exact .single (.pushed name id hlookup)
    | false => exact .refl

/-! ### Commands -/

theorem rememberRaw (context : Option ContextId) (key : Identity) (entry : RawEntry) :
    Turns (SessionM.rememberRaw context key entry) := by
  have htracked : ∀ (kind : EntryKind) (content : kind.Content),
      Turns (SessionM.rememberRaw.tracked context key kind content) := by
    intro kind content
    refine reading fun s => (script ?_).bind fun _ => pure _
    exact ScriptM.isSteady_of_staysIn fun _ => .remember context key kind content
  cases entry with
  | text value => exact (htracked .text value).bind fun _ => pure _
  | integer value => exact (htracked .integer value).bind fun _ => pure _

theorem keepPolicy (name : String) (policy : Policy) :
    Turns (SessionM.keepPolicy name policy) := by
  refine Turns.bind ?_ fun _ => pure _
  exact steadily (fun _ => rfl) (fun _ => rfl) fun _ => rfl

theorem makePolicy (name : String) (config : Config) (accessor : Option Accessor)
    (converter : Option ConverterTerm) :
    Turns (SessionM.makePolicy name config accessor converter) := by
  refine reading fun s => ?_
  cases converter with
  | none => exact (pure _).bind fun _ => keepPolicy name _
  | some c =>
    exact (optional scriptValue c.replacement).bind fun _ => (pure _).bind fun _ => keepPolicy name _

theorem site (place : WrapPlace) (realm : Option Realm) : Turns (SessionM.site place realm) := by
  cases place with
  | context name =>
    exact (require name).bind fun name => (context name).bind fun _ => reading fun _ => require _
  | current =>
    exact reading fun _ => (require _).bind fun _ => reading fun _ => require _
  | policy name contextName =>
    exact (policy (some name)).bind fun _ => (context? contextName).bind fun _ => pure _

theorem keep (register : Option String) (outcome : Outcome) :
    Turns (SessionM.keep register outcome) := by
  unfold SessionM.keep
  split
  · exact steadily (fun _ => rfl) (fun _ => rfl) fun _ => rfl
  · exact steadily (fun _ => rfl) (fun _ => rfl) fun _ => rfl
  · exact pure ()

theorem scriptOutcome {act : ScriptM Catalog ScriptValue} (h : ∀ w, act.StaysIn .all w) :
    Turns (SessionM.scriptOutcome act) :=
  (script (ScriptM.isSteady_of_staysIn h)).map _

/-- A command on the host's side. -/
theorem runHost (command : Command) : Turns (SessionM.runHost command) := by
  cases command with
  | host term => exact (hostValue term).map _
  | hostObject type object => exact (makeObject type object).map _
  | hostFunction name arity action => exact (makeFunction name arity action).map _
  | hostMethod type m => exact (makeMethod type m).map _
  | hostClass term => exact (makeClass term).map _
  | bind method receiver =>
    refine (callable method).bind fun c => ?_
    split
    · exact (hostValue receiver).bind fun _ => pure _
    · exact throw _
  | unbind method =>
    refine (callable method).bind fun c => ?_
    split
    · exact pure _
    · exact throw _
  | memberOf term name =>
    refine (hostValue term).bind fun value => reading fun s => ?_
    split
    · exact (host _).bind fun _ => pure _
    · exact pure _
  | send term name args =>
    refine (hostValue term).bind fun value => reading fun s => ?_
    split
    · exact (mapM hostValue args).bind fun _ => (host _).bind fun _ => pure _
    · exact pure _
  | invoke term receiver args =>
    exact (callable term).bind fun _ => (optional hostValue receiver).bind fun _ =>
      (mapM hostValue args).bind fun _ => (host _).bind fun _ => pure _
  | describeClass term => exact (hostClass term).bind fun _ => pure _
  | instantiate term args =>
    exact (hostClass term).bind fun _ => (mapM hostValue args).bind fun _ =>
      (host _).bind fun _ => pure _
  | isHostInstance term value =>
    exact (hostClass term).bind fun _ => view.bind fun _ => (hostValue value).bind fun _ => pure _
  | describeCallable term => exact (callable term).bind fun _ => pure _
  | sameCallable a b => exact (callable a).bind fun _ => (callable b).bind fun _ => pure _
  | describeHost term => exact (hostValue term).bind fun _ => pure _
  | responds term name => exact (hostValue term).bind fun _ => reading fun _ => pure _
  | compareHost a b =>
    exact (hostValue a).bind fun _ => (hostValue b).bind fun _ => view.bind fun _ => pure _
  | hostState term =>
    exact (hostObject term).bind fun _ => reading fun _ => (require _).bind fun _ => pure _
  | sameIdentity a b =>
    exact (hostValue a).bind fun _ => (require _).bind fun _ => (hostValue b).bind fun _ =>
      (require _).bind fun _ => pure _
  | _ => exact throw _

/-- A script operation that opens no context and holds none. -/
theorem operation {α : Type} {act : ScriptM Catalog α} (h : ∀ w, act.StaysIn .all w) :
    Turns (SessionM.script act) :=
  script (ScriptM.isSteady_of_staysIn h)

/-- A command on the script's side. -/
theorem runScript (command : Command) : Turns (SessionM.runScript command) := by
  cases command with
  | script term => exact (scriptValue term).map _
  | ordinary className => exact (operation fun _ => .allocate _).bind fun _ => pure _
  | define term key value =>
    exact (ordinary term).bind fun id => (scriptValue value).bind fun _ =>
      (operation fun _ => .edit id _).bind fun _ => pure _
  | erase term key =>
    exact (ordinary term).bind fun id => (operation fun _ => .edit id _).bind fun _ => pure _
  | preventExtensions term =>
    exact (ordinary term).bind fun id => (operation fun _ => .edit id _).bind fun _ => pure _
  | own term key =>
    exact (ordinary term).bind fun id => (operation fun _ => .reading (.pure _)).bind fun _ => pure _
  | get term key =>
    exact (scriptValue term).bind fun value => scriptOutcome fun _ => .valueGet value key
  | has term key =>
    exact (scriptValue term).bind fun value =>
      (operation fun _ => .valueHas value key).bind fun _ => pure _
  | put term key content =>
    exact (scriptValue term).bind fun value => (scriptValue content).bind fun content =>
      (operation fun _ => .valuePut value key content).bind fun _ => pure _
  | lookUp term key =>
    refine (object term).bind fun id => (operation fun _ => .lookUp id key).bind fun found => ?_
    cases found <;> exact pure _
  | ids term =>
    exact (object term).bind fun id => (operation fun _ => .ids id).bind fun _ => pure _
  | prototype term =>
    refine (scriptValue term).bind fun value => reading fun s => ?_
    split <;> exact pure _
  | setPrototype term prototype =>
    exact (object term).bind fun id => (scriptValue prototype).bind fun _ =>
      (operation fun _ => .setPrototype trivial _).bind fun _ => pure _
  | call term this args place =>
    exact (scriptValue term).bind fun value => (scriptValue this).bind fun this =>
      (mapM scriptValue args).bind fun args => (context? place.context).bind fun context =>
        (realm? place.realm).bind fun realm =>
          scriptOutcome fun _ => .valueCall value context realm this args
  | callObject term this args place =>
    exact (object term).bind fun id => (scriptValue this).bind fun this =>
      (mapM scriptValue args).bind fun args => (context? place.context).bind fun context =>
        (realm? place.realm).bind fun realm =>
          scriptOutcome fun _ => .call (fun _ _ => trivial) id realm this args
  | callMethod term name args place =>
    exact (scriptValue term).bind fun value => (mapM scriptValue args).bind fun args =>
      (context? place.context).bind fun context => (realm? place.realm).bind fun realm =>
        scriptOutcome fun _ => .callMethod value name context realm args
  | construct term args place =>
    exact (scriptValue term).bind fun value => (mapM scriptValue args).bind fun args =>
      (context? place.context).bind fun context => (realm? place.realm).bind fun realm =>
        scriptOutcome fun _ => .valueConstruct value context realm args
  | isInstanceOf term hostClass =>
    exact (scriptValue term).bind fun value => (scriptValue hostClass).bind fun hostClass =>
      (operation fun _ => .isInstanceOf value hostClass).bind fun _ => pure _
  | compare a b =>
    exact view.bind fun _ => (scriptValue a).bind fun _ => (scriptValue b).bind fun _ => pure _
  | describe term => exact (scriptValue term).bind fun _ => pure _
  | «throwError» term => exact (error term).bind fun _ => throw _
  | catchError term realm =>
    exact (error term).bind fun e => (realm? realm).bind fun realm =>
      scriptOutcome fun _ => .caught e realm
  | _ => exact runHost _

/-- A command on policies, contexts and realms, or one that crosses. -/
theorem runShared (command : Command) : Turns (SessionM.runShared command) := by
  cases command with
  | policy name config accessor converter => exact makePolicy name config accessor converter
  | policyFile name text =>
    unfold SessionM.runShared
    dsimp only
    split
    · exact reading fun _ => keepPolicy name _
    · exact pure _
  | openContext name policyName => exact (policy policyName).bind fun p => openContext name p
  | dropContext name =>
    exact reading fun _ => (require _).bind fun _ => (letGo name).bind fun _ =>
      reading fun _ => pure _
  | isAlive name => exact reading fun _ => (require _).bind fun _ => reading fun _ => pure _
  | revive name => exact revive name
  | sameContext a b => exact (context a).bind fun _ => (context b).bind fun _ => pure _
  | remembered name => exact reading fun _ => (context name).bind fun _ => pure _
  | remember contextName key entry =>
    exact (context? contextName).bind fun context => rememberRaw context key entry
  | realm name =>
    refine (operation fun _ => .makeRealm).bind fun realm => Turns.bind ?_ fun _ => pure _
    exact steadily (fun _ => rfl) (fun _ => rfl) fun _ => rfl
  | realmObject name which =>
    exact (realm? (some name)).bind fun _ => (require _).bind fun _ => pure _
  | push name => exact push name
  | pop => exact pop
  | current => exact runningName.bind fun _ => reading fun _ => pure _
  | setInForce accessor =>
    exact fun _ => .single (.steady rfl rfl fun _ => rfl)
  | wrap term place realm =>
    exact (hostValue term).bind fun value => (realm? realm).bind fun realm =>
      (site place realm).bind fun site => scriptOutcome fun _ => .toScript (fun _ _ => trivial) value
  | unwrapWith term policyName =>
    exact (scriptValue term).bind fun value => (policy policyName).bind fun p =>
      (operation fun _ => .toHost p value).bind fun _ => pure _
  | unwrap term =>
    refine reading fun s => (scriptValue term).bind fun value => ?_
    split
    · split
      · exact pure _
      · exact throw _
      · exact pure _
    · exact pure _
  | describeWrapper term =>
    refine (scriptValue term).bind fun value => ?_
    split
    · exact reading fun _ => pure _
    · exact pure _
  | wrapError e => exact (operation fun _ => .allocate _).bind fun _ => pure _
  | _ => exact runScript _

mutual

/-- Any command: an attempt runs its body and, after a failure, its handler. -/
theorem runCommand (command : Command) : Turns (SessionM.runCommand command) := by
  cases command with
  | attempt body handler register realm =>
    rw [SessionM.runCommand]
    refine (runStep body).observed.bind fun outcome => ?_
    split
    case h_1 e =>
      refine (realm? realm).bind fun realm => (operation fun _ => .caught e realm).bind fun _ => ?_
      refine (keep _ _).bind fun _ => ?_
      cases handler with
      | none => exact pure _
      | some handler => exact ((runStep handler).bind fun _ => require _).map _
    case h_2 => exact throw _
    case h_3 => exact (require _).map _
  | _ =>
    rw [SessionM.runCommand]
    · exact runShared _
    · exact nofun

/-- A step runs its command and keeps the outcome. -/
theorem runStep (step : Step) : Turns (SessionM.runStep step) := by
  cases step with
  | mk command register =>
    rw [SessionM.runStep]
    exact (runCommand command).bind fun outcome => (keep register outcome).bind fun _ => pure _

end

end Turns

end SessionM

/-! ## Sessions -/

/-- Steps lead from a session to another. -/
abbrev Session.Leads : Session → Session → Prop :=
  Relation.ReflTransGen fun s s' => ∃ step, s' = (s.step step).2

/-- Running steps comes down to turns. -/
theorem Session.Leads.turns {s s' : Session} (h : s.Leads s') :
    Relation.ReflTransGen Session.Turn s s' := by
  induction h with
  | refl => exact .refl
  | @tail u u' _ hstep ih =>
    obtain ⟨step, rfl⟩ := hstep
    -- after its command a step only clears the records of the host and the journal
    exact (ih.trans (SessionM.Turns.runStep step u)).tail (.steady rfl rfl fun _ => rfl)

/-- In every session each handle of a context belongs to a register or to the stack. -/
theorem Session.Leads.accounts {s : Session} (h : Session.initial.Leads s) : s.Accounts := by
  have hturns := h.turns
  clear h
  induction hturns with
  | refl => exact fun _ => rfl
  | tail _ hturn ih => exact hturn.accounts ih

/-- A context that nobody holds any more stays so. -/
theorem Session.Leads.gone {s s' : Session} (h : s.Leads s') {c : ContextId}
    (hc : s.world.IsGone c) : s'.world.IsGone c := by
  have hturns := h.turns
  clear h
  induction hturns with
  | refl => exact hc
  | tail _ hturn ih => exact hturn.gone ih

end Membrane
