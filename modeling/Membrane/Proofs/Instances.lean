import Membrane.Catalog.Running
import Membrane.Proofs.Arguments
import Membrane.Proofs.Keys
import Membrane.Proofs.Method

/-!
# Instances that script code makes

A class that sets up objects of one type makes a new object at each construction. The object gets a
new wrapper only if nothing is remembered under its key yet, and an address may be taken again once
nobody holds the object that had it. So this rests on what contexts remember: under the key of an
object there is a wrapper of that very object (`World.Respects`), which holds it, and an address that
is held is not given out (`World.Frees`).
-/

namespace Membrane

variable {σ : Type} {w w' : World σ} {c : ContextId} {a : Nat}

/-! ## Addresses that are remembered -/

/-- The move puts nothing under the key of an object at an address but a wrapper of that object. -/
def Move.Respects (a : Nat) (w : World σ) : Move σ → Prop
  | .memoize _ (.object o) entry => o.address = a → w.heap.Registers (.object o) entry
  | _ => True

/-- What contexts remember under the key of an object at an address is a wrapper of that object. -/
def World.Respects (a : Nat) (w : World σ) : Prop :=
  ∀ c o entry, o.address = a → (w.cache c).get? (.object o) = some entry →
    w.heap.Registers (.object o) entry

/-- No object at an address is held by a wrapper that a context remembers. -/
def World.Frees (w : World σ) (c : ContextId) (a : Nat) : Prop :=
  ∀ x v o, w.Stores c x → w.heap.wrapper? x = some v → v.subject = .object o → o.address ≠ a

theorem Move.IsPlain.respects {m : Move σ} (h : m.IsPlain) : m.Respects a w := by
  cases m with
  | memoize context key entry => exact h.elim
  | _ => trivial

namespace World.Respects

theorem keep (h : w.Respects a) (context : Option ContextId) {key : Identity} {entry : Entry}
    (hentry : ∀ o, key = .object o → o.address = a → w.heap.Registers key entry) :
    (w.keep context key entry).Respects a := by
  intro d o entry' ho hget
  rw [heap_keep]
  rcases w.cache_keep_cases context key entry d with hsame | hnew
  · exact h d o entry' ho (hsame ▸ hget)
  · rw [hnew, Cache.get?_insert] at hget
    split at hget
    case isTrue hkey =>
      subst hkey
      exact Option.some.inj hget ▸ hentry o rfl ho
    case isFalse => exact h d o entry' ho hget

/-- Under the key of an object whose address is not held, nothing is remembered. -/
theorem get?_eq_none (h : w.Respects a) (hfrees : w.Frees c a) {o : HostObject}
    (ho : o.address = a) : (w.cache c).get? (.object o) = none := by
  cases hget : (w.cache c).get? (.object o) with
  | none => rfl
  | some entry =>
    obtain ⟨x, v, hv, hkey, rfl⟩ := h c o entry ho hget
    -- it would be a wrapper of this very object, which then is held
    have hsubject : v.subject = .object o := Identity.names_iff.2 hkey.symm
    exact absurd ho (hfrees x v o ⟨_, _, hget⟩ hv hsubject)

variable [Host σ]

theorem change (h : w.Respects a) (hstep : Change False w w') : w'.Respects a := by
  have hpreserved : w.heap.Preserved w'.heap := fun _ _ hv => hstep.wrapper? hv
  intro d o entry ho hget
  rcases hstep.get?_cases hget with hold | ⟨-, hregisters⟩
  · exact hpreserved.registers (h d o entry ho hold)
  · exact hregisters.resolve_left id

theorem changes (h : w.Respects a) (hsteps : Changes False w w') : w'.Respects a := by
  induction hsteps with
  | refl => exact h
  | tail _ hstep ih => exact ih.change hstep

theorem after (h : w.Respects a) (hs : w.Sound) {m : Move σ} (hm : m.Allowed w)
    (hrespects : m.Respects a w) : (w.after m).Respects a := by
  have hplain : m.IsPlain → (w.after m).Respects a := fun hplain =>
    h.changes (m.changes hs hm (.inr hplain))
  cases m with
  | memoize context key entry =>
    show World.Respects a ((discard _ : ScriptM σ Unit).on w).2
    rw [ScriptM.on_discard, on_remember]
    cases w.known? context key entry.kind with
    | some content => exact h
    | none =>
      -- only here does the move put something there, and it is a wrapper of the object
      have hentry : ∀ o, key = .object o → o.address = a → w.heap.Registers key entry := by
        rintro o rfl ho
        exact hrespects ho
      exact h.keep context hentry
  | _ => exact hplain trivial

end World.Respects

variable [Host σ]

/-- A world that was reached by moves that put nothing but its wrapper under the key of an object at
an address. -/
def World.ReachedRespecting (a : Nat) (w : World σ) : Prop :=
  ∃ host inForce,
    Relation.ReflTransGen (World.LeadsBy (Move.Respects a)) (World.initial host inForce) w

theorem World.PlainlyReachable.respecting (h : w.PlainlyReachable) (a : Nat) :
    w.ReachedRespecting a := by
  obtain ⟨host, inForce, h⟩ := h
  refine ⟨host, inForce, Relation.ReflTransGen.mono ?_ _ _ h⟩
  rintro v v' ⟨m, hm, hplain, hv'⟩
  exact ⟨m, hm, hplain.respects, hv'⟩

theorem World.ReachedRespecting.reachable (h : w.ReachedRespecting a) : w.Reachable := by
  obtain ⟨host, inForce, h⟩ := h
  refine ⟨host, inForce, Relation.ReflTransGen.mono ?_ _ _ h⟩
  rintro v v' ⟨m, hm, -, hv'⟩
  exact ⟨m, hm, trivial, hv'⟩

theorem World.ReachedRespecting.respects (h : w.ReachedRespecting a) : w.Respects a := by
  obtain ⟨host, inForce, h⟩ := h
  have hinitial : (World.initial host inForce).Respects a := by
    intro c o entry ho hget
    cases hget
  exact (World.initial_sound host inForce).run hinitial
    (fun u m hs hu hm hrespects => hu.after hs hm hrespects) h

/-! ## One construction -/

section Construction

variable {id : ObjectId} {v : Wrapper} {k : HostClass} {type : String} {initializer : Code}

omit [Host σ] in
/-- Host code that goes on with what other host code answers. -/
theorem World.directly_bind_of_ok {α β : Type} {act : HostM σ α} {a : α} {side : HostSide σ}
    (h : w.directly act = (.ok a, side)) (next : α → HostM σ β) :
    w.directly (act >>= next) = { w with host := side }.directly (next a) := by
  have hact : act w.heap w.host = (.ok a, side) := h
  show ExceptT.bindCont (fun a => next a w.heap) (act w.heap w.host).1 (act w.heap w.host).2 = _
  rw [hact]
  rfl

omit [Host σ] in
/-- Host code that fails goes on with nothing. -/
theorem World.directly_bind_of_error {α β : Type} {act : HostM σ α} {e : HostError}
    {side : HostSide σ} (h : w.directly act = (.error e, side)) (next : α → HostM σ β) :
    w.directly (act >>= next) = (.error e, side) := by
  have hact : act w.heap w.host = (.error e, side) := h
  show ExceptT.bindCont (fun a => next a w.heap) (act w.heap w.host).1 (act w.heap w.host).2 = _
  rw [hact]
  rfl

/-- A class that sets up objects fails, or answers with an object of its type at the next address. -/
theorem HostClass.instantiate_cases (hk : k.maker = .factory type initializer)
    (args : List HostValue) (w : World σ) :
    (∃ e, (w.directly (k.instantiate args)).1 = .error e) ∨
      (w.directly (k.instantiate args)).1 = .ok (.object ⟨w.host.next, type⟩) := by
  let setUp : HostM σ PUnit :=
    discard (Host.run initializer (some (.object ⟨w.host.next, type⟩)) args)
  let w₁ : World σ := { w with host := w.host.fresh.2 }
  have hfresh : w.directly (HostM.fresh : HostM σ Nat) = (.ok w.host.next, w.host.fresh.2) := rfl
  -- the initializer runs on the new object, and its answer counts for nothing
  have hrun : w.directly (k.instantiate args) =
      w₁.directly (setUp >>= fun _ => pure (.object ⟨w.host.next, type⟩)) := by
    rw [HostClass.instantiate, HostClass.instantiateWith, hk]
    exact World.directly_bind_of_ok hfresh _
  rw [hrun]
  rcases hsetUp : w₁.directly setUp with ⟨e | answer, side⟩
  · exact .inl ⟨e, congrArg Prod.fst (World.directly_bind_of_error hsetUp _)⟩
  · exact .inr (congrArg Prod.fst (World.directly_bind_of_ok hsetUp _))

/-- Constructing comes to one run of the class, and its outcome is delivered. -/
theorem on_construct_deliver (hv : w.heap.wrapper? id = some v) (hk : v.subject = .constructor k)
    (hp : v.policy.converter = .standard) (context : Option ContextId) (realm : Option Realm)
    (args : List ScriptValue) {i : Invocation}
    (hi : i = .hostClass k ((k.arity.fit .null args).map w.heap.crossIn)) :
    ∃ w₁ : World σ, w₁.heap = w.heap ∧ w₁.contexts = w.contexts ∧
      w₁.runs = w.runs ++ [(i, (w.directly i.run).1)] ∧
      (id.construct context realm args).on w =
        w₁.deliver ⟨v.policy, context, realm.or v.realm⟩ (w.directly i.run).1 := by
  let site : Site := ⟨v.policy, context, realm.or v.realm⟩
  have hcallee : w.heap.callee? id context realm = some (.hostClass k, site) := by
    rw [Heap.callee?, hv, Option.bind_some, hk]
    rfl
  have hsite : site.policy.converter = .standard := hp
  obtain ⟨receiver, i', w₁, -, hi', hheap, hcontexts, -, hruns, hcall⟩ :=
    (Callee.hostClass k).on_call_standard hsite .undefined args w
  obtain rfl : i' = i := hi'.trans hi.symm
  refine ⟨w₁, hheap, hcontexts, hruns, ?_⟩
  rw [ObjectId.construct, ScriptM.on_get_bind, hcallee]
  exact hcall

omit [Host σ] in
/-- A host value of a key that nothing is remembered under gets a new wrapper, and the context
remembers it behind everything else. -/
theorem World.entries_pushWrapper {site : Site} {subject : Subject} (hc : site.context = some c)
    (halive : w.isAlive c) (hnone : (w.cache c).get? subject.identity = none) :
    ((w.pushWrapper site subject).cache c).entries =
      (w.cache c).entries ++ [(subject.identity, subject.entry w.heap.next)] := by
  have hcache : (w.pushWrapper site subject).cache c =
      (w.cache c).insert subject.identity (subject.entry w.heap.next) := by
    rw [pushWrapper, hc]
    exact cache_keep_self halive _ _
  rw [hcache, Cache.insert_of_none hnone]

/-- What comes of a construction that succeeds: in its one run the class has made an object, there
is a new wrapper of this object, and one context has one more entry, which holds the wrapper. -/
structure World.Gains (w : World σ) (c : ContextId) (site : Site) (i : Invocation) (o : HostObject)
    (x : ObjectId) (w' : World σ) : Prop where
  ran : w'.runs = w.runs ++ [(i, .ok (.object o))]
  new : ¬ w.heap.Holds x
  wraps : w'.heap.wrapper? x = some ⟨.object o, site.policy, site.context, site.realm⟩
  entries : (w'.cache c).entries =
    (w.cache c).entries ++ [(.object o, (Subject.object o).entry x)]
  others : ∀ d ≠ c, w'.cache d = w.cache d

/-- What comes of a construction that fails: the one run of the class has failed, an object carries
its error, and no context remembers anything else. -/
structure World.GainsNothing (w : World σ) (i : Invocation) (e : HostError) (x : ObjectId)
    (w' : World σ) : Prop where
  ran : w'.runs = w.runs ++ [(i, .error e)]
  carries : w'.heap.hostError? x = some e
  caches : ∀ d, w'.cache d = w.cache d

omit [Host σ] in
/-- An object under whose key nothing is remembered crosses as a new wrapper. -/
theorem on_crossOut_gains {w₁ : World σ} {site : Site} {i : Invocation} {o : HostObject}
    (hheap : w₁.heap = w.heap) (hcontexts : w₁.contexts = w.contexts)
    (hruns : w₁.runs = w.runs ++ [(i, .ok (.object o))]) (hc : site.context = some c)
    (halive : w.isAlive c) (hnone : (w.cache c).get? (.object o) = none) :
    ∃ w', (crossOut site (.object o)).on w₁ = (.ok (.object w.heap.next), w') ∧
      w.Gains c site i o w.heap.next w' := by
  have hcache : ∀ d, w₁.cache d = w.cache d := World.cache_congr hcontexts
  have hunknown : w₁.wrapper? site (.object o) = none := by
    rw [World.wrapper?, World.known?_eq, hc, Option.bind_some, hcache, Subject.identity, hnone,
      Option.bind_none]
  have hwrap : (wrap site (.object o)).on w₁ =
      (.ok w.heap.next, w₁.pushWrapper site (.object o)) := by
    rw [on_wrap, hunknown, hheap]
  refine ⟨_, on_crossOut hwrap, ?_⟩
  constructor
  case ran =>
    have hsame := runs_wrap site (.object o) w₁
    rw [hwrap] at hsame
    exact hsame.trans hruns
  case new => exact Nat.lt_irrefl _
  case wraps =>
    rw [World.heap_pushWrapper, ← hheap]
    exact Heap.wrapper?_push_next _
  case entries =>
    have halive₁ : w₁.isAlive c := (World.isAlive_congr hcontexts c).trans halive
    have hnone₁ : (w₁.cache c).get? (Subject.object o).identity = none := hcache c ▸ hnone
    rw [World.entries_pushWrapper hc halive₁ hnone₁, hcache, hheap]
    rfl
  case others =>
    intro d hd
    have hother : site.context ≠ some d := fun h => hd (Option.some.inj (h.symm.trans hc))
    exact (World.cache_keep_of_ne (w := w₁.push _) hother _ _).trans (hcache d)

/-- A wrapped object is an instance of a class that sets up objects if it is of their type. -/
theorem on_isInstanceOf {x d : ObjectId} {vx vd : Wrapper} {o : HostObject}
    (hx : w.heap.wrapper? x = some vx) (ho : vx.subject = .object o)
    (hd : w.heap.wrapper? d = some vd) (hk : vd.subject = .constructor k)
    (hmaker : k.maker = .factory type initializer) :
    ((ScriptValue.object x).isInstanceOf (.object d)).on w =
      (.ok (decide (o.type = type)), w) := by
  obtain ⟨_, _, _, _⟩ := vd
  obtain ⟨_, _, _, _⟩ := vx
  dsimp only at ho hk
  subst ho hk
  have hwrapped : ObjectId.hasInstance.wrapped? w.heap (.object x) = some o := by
    rw [ObjectId.hasInstance.wrapped?, hx]
  have hinstance : k.isInstance w.view (.object o) = decide (o.type = type) := by
    rw [HostClass.isInstance, hmaker]
    rfl
  rw [ScriptValue.isInstanceOf, ObjectId.hasInstance, ScriptM.on_bind_of_ok (ScriptM.on_view w)]
  dsimp only [World.view]
  rw [hd]
  dsimp only
  rw [if_neg (show ¬ (ScriptValue.object x).isNullish = true from Bool.false_ne_true), hwrapped]
  exact congrArg (fun b => (Except.ok b, w)) hinstance

/-- In this world and in all later ones, an object is an instance of exactly those classes, among
the ones that set up objects, whose objects are of a given type. -/
def World.HasType (w : World σ) (x : ObjectId) (type : String) : Prop :=
  ∀ u, w.Reaches u → ∀ d v k type' initializer, u.heap.wrapper? d = some v →
    v.subject = .constructor k → k.maker = .factory type' initializer →
    ((ScriptValue.object x).isInstanceOf (.object d)).on u = (.ok (decide (type = type')), u)

theorem World.Sound.hasType (hs : w.Sound) {x : ObjectId} {vx : Wrapper} {o : HostObject}
    (hx : w.heap.wrapper? x = some vx) (ho : vx.subject = .object o) : w.HasType x o.type := by
  intro u hreaches d v k type' initializer hd hk hmaker
  -- what an object is never changes, so the wrapper is still one of the same host object
  have hkind := hreaches.kind? hs (Heap.wrapper?_eq_some.1 hx)
  exact on_isInstanceOf (Heap.wrapper?_eq_some.2 hkind) ho hd hk hmaker

end Construction

/-! ## Every instance is new -/

/-- **Every construction makes a new instance.** Let a class set up objects of one type, and let
values cross as they are under the policy of a wrapper of the class. Let nothing have been put
directly under the key of an object at the next address but a wrapper of it, and let the next address
not be held by a wrapper that the context remembers. Then calling the wrapper in that context and
constructing with it come to the same: one run of the class. If the run fails, its error is thrown
and no context remembers anything else. If it succeeds, it has made an object of the type, at the
next address; the answer is a wrapper of this object that was not there before, and the context has
one more entry, which holds the wrapper. From then on the wrapper is an instance of exactly those
classes that set up objects of the type. -/
theorem World.ReachedRespecting.new_instance (hw : w.ReachedRespecting w.host.next)
    {id : ObjectId} {v : Wrapper} (hv : w.heap.wrapper? id = some v) {k : HostClass}
    (hk : v.subject = .constructor k) {type : String} {initializer : Code}
    (hmaker : k.maker = .factory type initializer) (hp : v.policy.converter = .standard)
    {realm : Option Realm} (hserves : w.Serves (some c) realm) (hfrees : w.Frees c w.host.next)
    (this : ScriptValue) (args : List ScriptValue) :
    (id.call (some c) realm this args).on w = (id.construct (some c) realm args).on w ∧
      ∃ (i : Invocation) (x : ObjectId) (w' : World σ),
        i = .hostClass k ((k.arity.fit .null args).map w.heap.crossIn) ∧
        ((∃ e, (id.construct (some c) realm args).on w = (.error (.thrown (.object x)), w') ∧
            w.GainsNothing i e x w') ∨
          (id.construct (some c) realm args).on w = (.ok (.object x), w') ∧
            w.Gains c ⟨v.policy, some c, realm.or v.realm⟩ i ⟨w.host.next, type⟩ x w' ∧
            w'.HasType x type) := by
  let i : Invocation := .hostClass k ((k.arity.fit .null args).map w.heap.crossIn)
  let site : Site := ⟨v.policy, some c, realm.or v.realm⟩
  refine ⟨on_call_eq_construct hv hk (some c) realm this args, i, w.heap.next, ?_⟩
  obtain ⟨w₁, hheap, hcontexts, hruns, hconstruct⟩ :=
    on_construct_deliver hv hk hp (some c) realm args (i := i) rfl
  rcases k.instantiate_cases hmaker i.args w with ⟨e, hfails⟩ | hmakes
  · have houtcome : (w.directly i.run).1 = .error e := hfails
    rw [houtcome] at hruns hconstruct
    have hpushed : (w₁.pushError e).contexts = w.contexts := hcontexts
    refine ⟨w₁.pushError e, rfl, .inl ⟨e, hheap ▸ hconstruct, hruns, ?_, World.cache_congr hpushed⟩⟩
    rw [Heap.hostError?_eq_some, ← hheap, World.pushError, World.push, Heap.kind?_push, if_pos rfl]
  · have houtcome : (w.directly i.run).1 = .ok (.object ⟨w.host.next, type⟩) := hmakes
    rw [houtcome] at hruns hconstruct
    have hsite : site.context = some c := rfl
    obtain ⟨w', hcross, hgains⟩ := on_crossOut_gains hheap hcontexts hruns hsite
      (hserves.alive c rfl) (hw.respects.get?_eq_none hfrees rfl)
    have hanswer := hconstruct.trans hcross
    refine ⟨w', rfl, .inr ⟨hanswer, hgains, ?_⟩⟩
    have hafter := hw.reachable.after (m := .construct id (some c) realm args)
      ⟨Heap.holds_of_wrapper? hv, hserves⟩
    rw [World.after, Move.run, ScriptM.on_discard, hanswer] at hafter
    exact hafter.sound.hasType hgains.wraps rfl

namespace Catalog

/-- A class of points. -/
def pointClass : HostClass := ⟨5, "Point", .exactly 1, .factory "Point" ⟨0⟩⟩

/-- Another class of points, of another name. -/
def dotClass : HostClass := ⟨6, "Dot", .exactly 0, .factory "Point" ⟨0⟩⟩

/-- A class of lines, of the name of the first one. -/
def lineClass : HostClass := ⟨7, "Point", .exactly 1, .factory "Line" ⟨0⟩⟩

/-- A context that remembers the wrapper of one class, and wrappers of the others. -/
def withClasses : World Catalog :=
  let policy : Policy := ⟨{}, .standard, .standard⟩
  let setup : Setup := ⟨{ className := "Point", methods := [], members := [] }, [], ["x"], none⟩
  ((((World.initial ⟨8, { definitions := #[⟨some "Point::new", .initializer setup⟩] }⟩
    .standard).after (.openContext policy)).after
    (.wrap ⟨policy, some ⟨0⟩, none⟩ (.constructor pointClass))).after
    (.wrap ⟨policy, none, none⟩ (.constructor dotClass))).after
    (.wrap ⟨policy, none, none⟩ (.constructor lineClass))

theorem withClasses_reachable : withClasses.PlainlyReachable := by
  refine ((((World.initial_reachable _ _).after (m := .openContext _) trivial trivial).after
    (m := .wrap _ _) ?point trivial).after (m := .wrap _ _) ?dot trivial).after
    (m := .wrap _ _) ?line trivial
  case point => exact World.serves_some rfl
  case dot => exact World.serves_none _
  case line => exact World.serves_none _

/-- A point that is constructed gets a new wrapper, which is an instance of both classes of points
and not of the class of lines. -/
theorem new_instance_withClasses : ∃ x w',
    (ObjectId.construct ⟨0⟩ (some ⟨0⟩) none [.null]).on withClasses = (.ok (.object x), w') ∧
      ¬ withClasses.heap.Holds x ∧
      ((ScriptValue.object x).isInstanceOf (.object ⟨1⟩)).on w' = (.ok true, w') ∧
      ((ScriptValue.object x).isInstanceOf (.object ⟨2⟩)).on w' = (.ok false, w') := by
  have hserves : withClasses.Serves (some ⟨0⟩) none := World.serves_some rfl
  have hfrees : withClasses.Frees ⟨0⟩ withClasses.host.next := by
    rintro ⟨x⟩ v o - hv ho
    have hx : x < 3 := Heap.holds_of_wrapper? hv
    match x with
    | 0 | 1 | 2 =>
      cases hv
      cases ho
  have hmakes : ((ObjectId.construct ⟨0⟩ (some ⟨0⟩) none [.null]).on withClasses).1 =
      .ok (.object ⟨3⟩) := rfl
  have hv : withClasses.heap.wrapper? ⟨0⟩ = some ⟨.constructor pointClass,
      ⟨{}, .standard, .standard⟩, some ⟨0⟩, none⟩ := rfl
  obtain ⟨-, i, x, w', -, houtcome⟩ := (withClasses_reachable.respecting _).new_instance hv rfl rfl rfl
    hserves hfrees .undefined [.null]
  rcases houtcome with ⟨e, hfails, -⟩ | ⟨hconstruct, hgains, htype⟩
  · rw [hfails] at hmakes
    cases hmakes
  · obtain rfl := congrArg Prod.snd hconstruct
    exact ⟨x, _, hconstruct, hgains.new,
      htype _ .refl ⟨1⟩ ⟨.constructor dotClass, _, _, _⟩ dotClass _ _ rfl rfl rfl,
      htype _ .refl ⟨2⟩ ⟨.constructor lineClass, _, _, _⟩ lineClass _ _ rfl rfl rfl⟩

/-- Then another object was wrapped without a context, and its wrapper put into the memory of the
context under the key of the object that comes next. -/
def withForeignPoint : World Catalog :=
  (withClasses.after (.wrap ⟨⟨{}, .standard, .standard⟩, none, none⟩ (.object ⟨4, "Line"⟩))).after
    (.memoize (some ⟨0⟩) (.object ⟨8, "Point"⟩) ⟨.wrapper .object, ⟨3⟩⟩)

/-- Where a foreign wrapper was put under the key of the object that comes next, a construction that
succeeds answers with that old wrapper, and the context has no entry more. And where the class is
asked for its member `new` and that is called, the context has two entries more, as it remembers the
member too. -/
theorem new_instance_foreign :
    (withForeignPoint.Reachable ∧ withForeignPoint.isAlive ⟨0⟩ = true ∧
      withForeignPoint.heap.wrapper? ⟨0⟩ =
        some ⟨.constructor pointClass, ⟨{}, .standard, .standard⟩, some ⟨0⟩, none⟩ ∧
      withForeignPoint.Frees ⟨0⟩ withForeignPoint.host.next ∧
      withForeignPoint.heap.Holds ⟨3⟩ ∧
      let made := (ObjectId.construct ⟨0⟩ (some ⟨0⟩) none [.null]).on withForeignPoint
      made.1 = .ok (.object ⟨3⟩) ∧ (withForeignPoint.cache ⟨0⟩).size = 2 ∧
        (made.2.cache ⟨0⟩).size = 2) ∧
    let asked := (ObjectId.get? ⟨0⟩ (.name "new")).on withClasses
    let made := (ObjectId.call ⟨3⟩ (some ⟨0⟩) none (.object ⟨0⟩) [.null]).on asked.2
    asked.1 = .ok (some (.object ⟨3⟩)) ∧ made.1 = .ok (.object ⟨4⟩) ∧
      (withClasses.cache ⟨0⟩).size = 1 ∧ (made.2.cache ⟨0⟩).size = 3 := by
  have hfrees : withForeignPoint.Frees ⟨0⟩ withForeignPoint.host.next := by
    rintro ⟨x⟩ v o - hv ho
    have hx : x < 4 := Heap.holds_of_wrapper? hv
    match x with
    | 0 | 1 | 2 =>
      cases hv
      cases ho
    | 3 =>
      cases hv
      cases ho
      decide
  have hforeign : withForeignPoint.Reachable := by
    refine (withClasses_reachable.reachable.after (m := .wrap _ _) ?wrap).after
      (m := .memoize _ _ _) ?put
    case wrap => exact World.serves_none _
    case put => exact ⟨World.serves_some rfl, _, rfl, rfl⟩
  have hholds : withForeignPoint.heap.Holds ⟨3⟩ := by decide
  exact ⟨⟨hforeign, rfl, rfl, hfrees, hholds, rfl, rfl, rfl⟩, rfl, rfl, rfl, rfl⟩

end Catalog

end Membrane
