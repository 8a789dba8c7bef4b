import GuestBoundary.Proofs.Classes.Dispatch
import GuestBoundary.Proofs.Native.Bindings
import GuestBoundary.Proofs.Native.Marshalling

/-!
# Registrations, links and what they leave

`Bindings.run` registers, unregisters and links native methods and enters symbols in any order,
while classes are defined, and keeps a list of what happened next to the bridge.
`Bindings.Consistent` is what one operation preserves: the binding of each method and the function of
each symbol are the ones that the list says.  What the functions of the interface and the calls of
native methods do to a world is what these operations do (`registerEach_cases`,
`unregisterNatives_eq`, `Targets.called`).
-/

namespace GuestBoundary.Native

/-! ## Runs -/

/-- What happens to bindings and symbols. -/
inductive BindingEvent where
  /-- The method was registered or linked. -/
  | bound (m : MethodRef) (address : Address)
  /-- The bindings of the class were dropped. -/
  | unregistered (c : ClassId)
  /-- A function was entered under a symbol. -/
  | entered (symbol : String) (address : Address)

/-- The symbol and the function that were entered. -/
def BindingEvent.entry? : BindingEvent → Option (String × Address)
  | entered symbol address => some (symbol, address)
  | _ => none

/-- The address to which a method was last bound, unless its class was unregistered since; the last
event comes first. -/
def lastBound : List BindingEvent → MethodRef → Option Address
  | [], _ => none
  | .bound m' address :: es, m => if m = m' then some address else lastBound es m
  | .unregistered c :: es, m => if m.owner = c then none else lastBound es m
  | .entered _ _ :: es, m => lastBound es m

/-- The function that was last entered under a symbol; the last event comes first. -/
def lastEntered (es : List BindingEvent) (symbol : String) : Option Address :=
  (es.filterMap BindingEvent.entry?).lookup symbol

/-- The function to which a method is linked: the one that was last entered under its short symbol,
or else under its long one. -/
def lastLinked (es : List BindingEvent) (r : Registry) (m : MethodRef) : Option Address :=
  (lastEntered es (Symbol.shortName (r.nameOf m.owner) (r.method m).name)).or
    (lastEntered es (Symbol.longName (r.nameOf m.owner) (r.method m).name (r.method m).type))

/-- The classes and the bridge of a run, and what happened to bindings and symbols, last first. -/
structure Bindings where
  registry : Registry
  bridge : Bridge
  events : List BindingEvent

/-- What a run may do.  Classes are named; a name that no class has does nothing. -/
inductive BindingOp where
  | define (spec : ClassSpec)
  | findClass (name : String)
  | register (owner name descriptor : String) (address : Address)
  /-- Registers methods in order, up to the first failure. -/
  | registerAll (owner : String) (entries : List Interface.NativeEntry)
  | unregister (owner : String)
  | addSymbol (symbol : String) (address : Address)
  /-- Calls a method of a class, which is linked if it has no binding. -/
  | invoke (owner name descriptor : String)
  /-- Reads a descriptor for a call. -/
  | sign (descriptor : String)

/-- The symbol and the function that an operation enters. -/
def BindingOp.entry? : BindingOp → Option (String × Address)
  | .addSymbol symbol address => some (symbol, address)
  | _ => none

/-- What a definition describes is no array. -/
def BindingOp.Valid : BindingOp → Prop
  | .define spec => ∀ elements, spec.sort ≠ .array elements
  | _ => True

namespace Bindings

/-- Registers a method. -/
def register? (s : Bindings) (c : ClassId) (name descriptor : String) (address : Address) :
    Option Bindings :=
  match s.registry.declaredMethod? c name descriptor,
      s.bridge.register s.registry c name descriptor address with
  | some m, .ok (_, b) => some { s with bridge := b, events := .bound m address :: s.events }
  | _, _ => none

/-- Registers an entry of a table, whose name and descriptor have to be there. -/
def enter? (c : ClassId) (s : Bindings) (entry : Interface.NativeEntry) : Option Bindings :=
  match entry.name, entry.descriptor with
  | some name, some descriptor =>
    s.register? c (Text.Modified.text name) (Text.Modified.text descriptor) entry.function
  | _, _ => none

/-- Registers entries in order, up to the first failure. -/
def registerAll (s : Bindings) (c : ClassId) : List Interface.NativeEntry → Bindings
  | [] => s
  | entry :: entries =>
    match s.enter? c entry with
    | some s => s.registerAll c entries
    | none => s

/-- Finds the function of a method. -/
def link (s : Bindings) (m : MethodRef) : Bindings :=
  match s.bridge.binding? s.registry m, s.bridge.linked? s.registry m,
      s.bridge.resolve s.registry m with
  | none, some address, .ok (_, b) =>
    { s with bridge := b, events := .bound m address :: s.events }
  | _, _, _ => s

/-- Performs one operation. -/
def perform (s : Bindings) : BindingOp → Bindings
  | .define spec => { s with registry := s.registry.defineOrKeep spec }
  | .findClass name =>
    match s.registry.findClass name with
    | .ok (_, r) => { s with registry := r }
    | .error _ => s
  | .register owner name descriptor address =>
    ((s.registry.find? owner).bind fun c => s.register? c name descriptor address).getD s
  | .registerAll owner entries =>
    match s.registry.find? owner with
    | some c => s.registerAll c entries
    | none => s
  | .unregister owner =>
    match s.registry.find? owner with
    | some c =>
      { s with
        bridge := (s.bridge.unregister s.registry c).2
        events := .unregistered c :: s.events }
    | none => s
  | .addSymbol symbol address =>
    { s with
      bridge := s.bridge.addSymbol symbol address
      events := .entered symbol address :: s.events }
  | .invoke owner name descriptor =>
    match (s.registry.find? owner).bind fun c => s.registry.declaredMethod? c name descriptor with
    | some m => s.link m
    | none => s
  | .sign descriptor =>
    match s.bridge.signatures.get descriptor with
    | .ok (_, signatures) => { s with bridge := { s.bridge with signatures } }
    | .error _ => s

/-- A run on a new bridge, over the classes that every run starts with. -/
def run (config : Config) (ops : List BindingOp) : Bindings :=
  ops.foldl perform ⟨.basic, .empty config, []⟩

theorem run_concat (config : Config) (pre : List BindingOp) (op : BindingOp) :
    run config (pre ++ [op]) = (run config pre).perform op := by
  rw [run, List.foldl_append]
  rfl

/-- The bridge is consistent, and methods are bound and symbols entered as the events say. -/
structure Consistent (s : Bindings) : Prop where
  reachable : s.registry.Reachable
  bridge : s.bridge.Consistent s.registry
  declared : ∀ m address, .bound m address ∈ s.events → s.registry.Declares m.owner m
  address : ∀ m, s.registry.Declares m.owner m →
    (s.bridge.binding? s.registry m).map Binding.address = lastBound s.events m
  symbols : s.bridge.symbols = s.events.filterMap BindingEvent.entry?

section RegisterAll

variable {s s' : Bindings} {c : ClassId}

theorem register?_of_enter? {entry : Interface.NativeEntry} (hs : s.enter? c entry = some s') :
    ∃ name descriptor, s.register? c name descriptor entry.function = some s' := by
  unfold enter? at hs
  split at hs
  · exact ⟨_, _, hs⟩
  · cases hs

/-- What every registration keeps, the registration of a table keeps. -/
theorem registerAll_induction {P : Bindings → Prop}
    (register : ∀ {s s' : Bindings} {name descriptor : String} {address : Address}, P s →
      s.register? c name descriptor address = some s' → P s')
    (hs : P s) (entries : List Interface.NativeEntry) : P (s.registerAll c entries) := by
  induction entries generalizing s with
  | nil => exact hs
  | cons entry entries ih =>
    rw [registerAll]
    split
    next s' henter =>
      obtain ⟨name, descriptor, hregister⟩ := register?_of_enter? henter
      exact ih (register hs hregister)
    next => exact hs

end RegisterAll

theorem lastBound_eq_none {es : List BindingEvent} {m : MethodRef}
    (h : ∀ address, .bound m address ∉ es) : lastBound es m = none := by
  induction es with
  | nil => rfl
  | cons e es ih =>
    have hrest := ih fun address hmem => h address (List.mem_cons_of_mem _ hmem)
    cases e with
    | bound m' address =>
      rw [lastBound, if_neg, hrest]
      rintro rfl
      exact h address List.mem_cons_self
    | unregistered c => rw [lastBound, hrest, ite_self]
    | entered symbol address => exact hrest

namespace Consistent

variable {s s' : Bindings} {c : ClassId} {m : MethodRef}

theorem start (config : Config) : Consistent ⟨.basic, .empty config, []⟩ where
  reachable := .basic
  bridge := .empty config _
  declared := fun _ _ h => nomatch h
  address := fun _ _ => rfl
  symbols := rfl

/-- A method that comes with a new class has no binding. -/
theorem grow (h : s.Consistent) {r : Registry} (hgrow : Registry.Extends s.registry r)
    (hr : r.Reachable) : Consistent { s with registry := r } where
  reachable := hr
  bridge := h.bridge.grow hgrow
  declared := fun m address hmem => hgrow.declares (h.declared m address hmem)
  address := by
    intro m hm
    by_cases hold : s.registry.Declares m.owner m
    · dsimp only
      rw [Bridge.binding?, hgrow.bindingKey_eq hold.lt_size]
      exact h.address m hold
    · rw [lastBound_eq_none fun address hmem => hold (h.declared m address hmem)]
      cases hb : s.bridge.binding? r m with
      | none => rfl
      | some binding =>
        exfalso
        obtain ⟨l₁, l₂, hl, -⟩ := List.lookup_eq_some_iff.1 hb
        obtain ⟨hdeclares, hkey, -⟩ := h.bridge.entries (r.bindingKey m) binding (by rw [hl]; simp)
        rw [← hgrow.bindingKey_eq hdeclares.lt_size] at hkey
        obtain rfl := hr.bindingKey_injective hm (hgrow.declares hdeclares) hkey
        exact hold hdeclares
  symbols := h.symbols

/-- Binding a method is one event. -/
theorem rebound (h : s.Consistent) (hm : s.registry.Declares m.owner m) (address : Address)
    {signatures : SignatureCache} (hs : signatures.Faithful) :
    Consistent
      { s with
        bridge := s.bridge.rebound s.registry signatures
          ⟨m, address, .ofType (s.registry.method m).type⟩
        events := .bound m address :: s.events } where
  reachable := h.reachable
  bridge := h.bridge.rebound hs hm address
  declared := by
    intro n address' hmem
    rcases List.mem_cons.1 hmem with hmem | hmem
    · cases hmem
      exact hm
    · exact h.declared n address' hmem
  address := by
    intro n hn
    dsimp only at hn ⊢
    rw [Bridge.binding?_rebound, lastBound]
    by_cases hnm : n = m
    · subst hnm
      simp
    · rw [if_neg hnm, if_neg (mt (h.reachable.bindingKey_injective hn hm) hnm)]
      exact h.address n hn
  symbols := h.symbols

/-- A registration that succeeds binds the method that it names, and no other one, to a function
that is not null. -/
theorem exists_of_register? (h : s.Consistent) {name descriptor : String} {address : Address}
    (hs : s.register? c name descriptor address = some s') :
    ∃ (m : MethodRef) (signatures : SignatureCache), s.registry.Declares m.owner m ∧
      address ≠ 0 ∧ signatures.Faithful ∧
      s' = { s with
        bridge := s.bridge.rebound s.registry signatures
          ⟨m, address, .ofType (s.registry.method m).type⟩
        events := .bound m address :: s.events } := by
  unfold Bindings.register? at hs
  rcases h.bridge.register_cases c name descriptor address with
    ⟨e, -, herror⟩ | ⟨m, signatures, hm, -, ha, hsignatures, hok⟩
  · rw [herror] at hs
    split at hs <;> cases hs
    contradiction
  · rw [hm, hok] at hs
    cases hs
    obtain ⟨hdeclares, -⟩ := Registry.of_declaredMethod? hm
    exact ⟨m, signatures, hdeclares.1 ▸ hdeclares, ha, hsignatures, rfl⟩

theorem register? (h : s.Consistent) {name descriptor : String} {address : Address}
    (hs : s.register? c name descriptor address = some s') : s'.Consistent := by
  obtain ⟨m, signatures, hm, -, hsignatures, rfl⟩ := h.exists_of_register? hs
  exact h.rebound hm address hsignatures

theorem enter? (h : s.Consistent) {entry : Interface.NativeEntry}
    (hs : s.enter? c entry = some s') : s'.Consistent := by
  obtain ⟨name, descriptor, hregister⟩ := register?_of_enter? hs
  exact h.register? hregister

theorem registerAll (h : s.Consistent) (c : ClassId) (entries : List Interface.NativeEntry) :
    (s.registerAll c entries).Consistent :=
  registerAll_induction (fun h hs => h.register? hs) h entries

theorem link (h : s.Consistent) (hm : s.registry.Declares m.owner m) : (s.link m).Consistent := by
  unfold Bindings.link
  rcases h.bridge.resolve_cases m with
    ⟨binding, hb, -⟩ | ⟨hb, address, signatures, ha, hsignatures, hok⟩ | ⟨hb, ha, -⟩
  · rw [hb]
    exact h
  · rw [hb, ha, hok]
    exact h.rebound hm address hsignatures
  · rw [hb, ha]
    exact h

/-- Unregistering a class drops the bindings of its methods, and of no others. -/
theorem binding?_unregister (h : s.Consistent) (hc : c.index < s.registry.size)
    (hm : s.registry.Declares m.owner m) :
    (s.bridge.unregister s.registry c).2.binding? s.registry m =
      if m.owner = c then none else s.bridge.binding? s.registry m := by
  have hfilter := Bridge.binding?_filter (b := s.bridge) (r := s.registry) (m := m)
    fun key => key.owner != s.registry.nameOf c
  refine hfilter.trans ?_
  by_cases hmc : m.owner = c
  · simp [Registry.bindingKey, hmc]
  · have hname : s.registry.nameOf m.owner ≠ s.registry.nameOf c :=
      mt (h.reachable.nameOf_injective hm.lt_size hc) hmc
    simp [Registry.bindingKey, hmc, hname]

theorem unregister (h : s.Consistent) (hc : c.index < s.registry.size) :
    Consistent
      { s with
        bridge := (s.bridge.unregister s.registry c).2
        events := .unregistered c :: s.events } where
  reachable := h.reachable
  bridge := h.bridge.filter _
  declared := by
    intro n address hmem
    rcases List.mem_cons.1 hmem with hmem | hmem
    · cases hmem
    · exact h.declared n address hmem
  address := by
    intro n hn
    dsimp only at hn ⊢
    rw [h.binding?_unregister hc hn, lastBound]
    split
    · rfl
    · exact h.address n hn
  symbols := h.symbols

/-- Entering a symbol is one event, which is not about bindings. -/
theorem addSymbol (h : s.Consistent) (symbol : String) (address : Address) :
    (s.perform (.addSymbol symbol address)).Consistent where
  reachable := h.reachable
  bridge := ⟨h.bridge.signatures, h.bridge.entries⟩
  declared := by
    intro n address' hmem
    rcases List.mem_cons.1 hmem with hmem | hmem
    · cases hmem
    · exact h.declared n address' hmem
  address := h.address
  symbols := congrArg ((symbol, address) :: ·) h.symbols

theorem sign (h : s.Consistent) {signatures : SignatureCache} (hs : signatures.Faithful) :
    Consistent { s with bridge := { s.bridge with signatures } } where
  reachable := h.reachable
  bridge := ⟨hs, h.bridge.entries⟩
  declared := h.declared
  address := h.address
  symbols := h.symbols

theorem perform (h : s.Consistent) {op : BindingOp} (hop : op.Valid) :
    (s.perform op).Consistent := by
  cases op with
  | define spec =>
    exact h.grow (.defineOrKeep s.registry spec) (h.reachable.defineOrKeep hop)
  | findClass name =>
    rw [Bindings.perform]
    split
    next c r hfind =>
      exact h.grow (Registry.extends_findClass hfind) (h.reachable.findClass hfind).1
    next => exact h
  | register owner name descriptor address =>
    rw [Bindings.perform]
    cases hs : (s.registry.find? owner).bind fun c => s.register? c name descriptor address with
    | none => exact h
    | some s' =>
      obtain ⟨c, -, hs⟩ := Option.bind_eq_some_iff.1 hs
      exact h.register? hs
  | registerAll owner entries =>
    rw [Bindings.perform]
    split
    · exact h.registerAll _ entries
    · exact h
  | unregister owner =>
    rw [Bindings.perform]
    split
    next c hc => exact h.unregister (Registry.lt_size_of_find? hc)
    next => exact h
  | addSymbol symbol address => exact h.addSymbol symbol address
  | invoke owner name descriptor =>
    rw [Bindings.perform]
    split
    next m hm =>
      obtain ⟨c, -, hm⟩ := Option.bind_eq_some_iff.1 hm
      obtain ⟨hdeclares, -⟩ := Registry.of_declaredMethod? hm
      exact h.link (hdeclares.1 ▸ hdeclares)
    next => exact h
  | sign descriptor =>
    rw [Bindings.perform]
    split
    next signature signatures hget =>
      exact h.sign (h.bridge.signatures.get hget).2
    next => exact h

theorem foldl (h : s.Consistent) {ops : List BindingOp} (hops : ∀ op ∈ ops, op.Valid) :
    (ops.foldl Bindings.perform s).Consistent := by
  induction ops generalizing s with
  | nil => exact h
  | cons op ops ih =>
    obtain ⟨hop, hops⟩ := List.forall_mem_cons.1 hops
    exact ih (h.perform hop) hops

end Consistent

theorem consistent_run (config : Config) {ops : List BindingOp} (hops : ∀ op ∈ ops, op.Valid) :
    (run config ops).Consistent :=
  (Consistent.start config).foldl hops

/-- A function that is linked is the one that the events say. -/
theorem Consistent.linked?_eq {s : Bindings} (h : s.Consistent) (m : MethodRef) :
    s.bridge.linked? s.registry m = lastLinked s.events s.registry m := by
  rw [Bridge.linked?, lastLinked, lastEntered, lastEntered, h.symbols]

/-! ### What is entered -/

section Entered

variable {s s' : Bindings} {c : ClassId}

theorem entries_register? {name descriptor : String} {address : Address}
    (hs : s.register? c name descriptor address = some s') :
    s'.events.filterMap BindingEvent.entry? = s.events.filterMap BindingEvent.entry? := by
  unfold register? at hs
  split at hs
  · cases hs
    rfl
  · cases hs

theorem entries_link (s : Bindings) (m : MethodRef) :
    (s.link m).events.filterMap BindingEvent.entry? =
      s.events.filterMap BindingEvent.entry? := by
  unfold link
  split <;> rfl

/-- Only one operation enters a symbol, and it always does. -/
theorem entries_perform (s : Bindings) (op : BindingOp) :
    (s.perform op).events.filterMap BindingEvent.entry? =
      op.entry?.toList ++ s.events.filterMap BindingEvent.entry? := by
  cases op with
  | define spec => rfl
  | findClass name =>
    rw [perform]
    split <;> rfl
  | register owner name descriptor address =>
    rw [perform]
    cases hs : (s.registry.find? owner).bind fun c => s.register? c name descriptor address with
    | none => rfl
    | some s' =>
      obtain ⟨c, -, hs⟩ := Option.bind_eq_some_iff.1 hs
      exact entries_register? hs
  | registerAll owner entries =>
    rw [perform]
    split
    · exact registerAll_induction (P := fun s' : Bindings =>
        s'.events.filterMap BindingEvent.entry? = s.events.filterMap BindingEvent.entry?)
        (fun hs hregister => (entries_register? hregister).trans hs) rfl entries
    · rfl
  | unregister owner =>
    rw [perform]
    split <;> rfl
  | addSymbol symbol address => rfl
  | invoke owner name descriptor =>
    rw [perform]
    split
    · exact entries_link s _
    · rfl
  | sign descriptor =>
    rw [perform]
    split <;> rfl

/-- The symbols that were entered are those of the operations, the last one first. -/
theorem entries_run (config : Config) (ops : List BindingOp) :
    (run config ops).events.filterMap BindingEvent.entry? =
      (ops.filterMap BindingOp.entry?).reverse := by
  induction ops using List.reverseRecOn with
  | nil => rfl
  | append_singleton ops op ih =>
    rw [run_concat, entries_perform, ih, List.filterMap_append, List.reverse_append]
    cases op <;> rfl

end Entered

end Bindings

/-! ## What the interface does to bindings -/

/-- The state of a run is what a world has of it. -/
structure Bindings.IsOf {H : Type} (s : Bindings) (w : World H) : Prop where
  registry : w.registry = s.registry
  bridge : w.bridge = some s.bridge

section World

open Interface

variable {H : Type} {w : World H} {s s' : Bindings} {c : ClassId} {entry : NativeEntry}

/-- The native method of a name and a descriptor is bound, in the bridge `b`. -/
structure Registers (s : Bindings) (c : ClassId) (name descriptor : String) (address : Address)
    (m : MethodRef) (b : Bridge) : Prop where
  declared : s.registry.declaredMethod? c name descriptor = some m
  native : (s.registry.method m).isNative = true
  notNull : address ≠ 0
  registered : ∃ binding, binding.method = m ∧ binding.address = address ∧
    s.bridge.register s.registry c name descriptor address = .ok (binding, b)
  entered : s.register? c name descriptor address =
    some { s with bridge := b, events := .bound m address :: s.events }

/-- A method is refused for one of three reasons, or registered. -/
theorem Bindings.Consistent.register_cases (hs : s.Consistent) (c : ClassId)
    (name descriptor : String) (address : Address) :
    (∃ e, Bridge.Refused s.registry c name descriptor address e ∧
      s.bridge.register s.registry c name descriptor address = .error e ∧
      s.register? c name descriptor address = none) ∨
    ∃ m b, Registers s c name descriptor address m b := by
  rcases hs.bridge.register_cases c name descriptor address with
    ⟨e, hrefused, herror⟩ | ⟨m, signatures, hm, hn, ha, -, hok⟩
  · exact .inl ⟨e, hrefused, herror, by simp [Bindings.register?, herror]⟩
  · exact .inr ⟨m, _, hm, hn, ha, ⟨_, rfl, rfl, hok⟩, by simp [Bindings.register?, hm, hok]⟩

/-- One entry of a table, in a world. -/
theorem registerEach_cons (h : s.IsOf w) (hs : s.Consistent) (entries : List NativeEntry) :
    (∃ s', s.enter? c entry = some s' ∧ s'.registry = s.registry ∧
      registerEach c (entry :: entries) w =
        registerEach c entries { w with bridge := some s'.bridge }) ∨
    (s.enter? c entry = none ∧ ∃ e, registerEach c (entry :: entries) w = .error e w) := by
  obtain ⟨name, descriptor, address⟩ := entry
  cases name with
  | none => exact .inr ⟨rfl, _, rfl⟩
  | some name =>
    cases descriptor with
    | none => exact .inr ⟨rfl, _, rfl⟩
    | some descriptor =>
      have hname : (Entry.text (some name) "method name" : Entry H String) w =
        .ok (Text.Modified.text name) w := rfl
      have hdescriptor : (Entry.text (some descriptor) "method signature" : Entry H String) w =
        .ok (Text.Modified.text descriptor) w := rfl
      have hread : (Action.read World.registry : Entry H Registry) w = .ok s.registry w :=
        congrArg (fun r => Outcome.ok r w) h.registry
      rw [registerEach, Action.bind_ok hname, Action.bind_ok hdescriptor, Action.bind_ok hread]
      rcases hs.register_cases c (Text.Modified.text name) (Text.Modified.text descriptor)
        address with ⟨e, -, herror, hnone⟩ | ⟨m, b, hregisters⟩
      · refine .inr ⟨hnone, .bind e, Action.bind_error (Action.bind_error ?_)⟩
        exact Entry.onBridge_error h.bridge (by rw [herror]; rfl)
      · obtain ⟨binding, -, -, hok⟩ := hregisters.registered
        have hbound : Entry.onBridge (fun b => (b.register s.registry c (Text.Modified.text name)
            (Text.Modified.text descriptor) address).mapError EntryError.bind) w =
              .ok binding { w with bridge := some b } :=
          Entry.onBridge_ok h.bridge (by rw [hok]; rfl)
        have hdone := Action.bind_ok (f := fun _ => pure ()) hbound
        exact .inl ⟨_, hregisters.entered, rfl, Action.bind_ok hdone⟩

/-- What came of registering the entries of a table in order: those in front of the first one that
fails are registered, and the others are not. -/
theorem registerEach_cases (h : s.IsOf w) (hs : s.Consistent) (c : ClassId)
    (entries : List NativeEntry) :
    ∃ done rest, entries = done ++ rest ∧
      done.foldlM (Bindings.enter? c) s = some (s.registerAll c entries) ∧
      ((rest = [] ∧ registerEach c entries w =
          .ok () { w with bridge := some (s.registerAll c entries).bridge }) ∨
        ∃ entry after e, rest = entry :: after ∧
          (s.registerAll c entries).enter? c entry = none ∧
          registerEach c entries w =
            .error e { w with bridge := some (s.registerAll c entries).bridge }) := by
  induction entries generalizing s w with
  | nil =>
    have hsame : { w with bridge := some s.bridge } = w := Entry.withBridge_self h.bridge
    refine ⟨[], [], rfl, rfl, .inl ⟨rfl, ?_⟩⟩
    rw [Bindings.registerAll, hsame]
    rfl
  | cons entry entries ih =>
    rcases registerEach_cons h hs entries with ⟨s', henter, hregistry, heq⟩ | ⟨hnone, e, herror⟩
    · have h' : s'.IsOf { w with bridge := some s'.bridge } := ⟨h.registry.trans hregistry.symm, rfl⟩
      obtain ⟨done, rest, rfl, hdone, hrest⟩ := ih h' (hs.enter? henter)
      have hall : s.registerAll c (entry :: (done ++ rest)) = s'.registerAll c (done ++ rest) := by
        rw [Bindings.registerAll, henter]
      refine ⟨entry :: done, rest, rfl, ?_, ?_⟩
      · rw [List.foldlM_cons, henter, hall]
        exact hdone
      · rw [heq, hall]
        exact hrest
    · have hall : s.registerAll c (entry :: entries) = s := by
        rw [Bindings.registerAll, hnone]
      refine ⟨[], entry :: entries, rfl, ?_, .inr ⟨entry, entries, e, rfl, ?_, ?_⟩⟩
      · rw [hall]
        rfl
      · rw [hall]
        exact hnone
      · rw [hall, Entry.withBridge_self h.bridge]
        exact herror

/-- The table of which native code registers the first `n` entries. -/
def tableOf (entries : List NativeEntry) (n : Int32) : List NativeEntry :=
  entries.take n.toInt.toNat ++
    List.replicate (n.toInt.toNat - entries.length) ⟨none, none, 0⟩

theorem registerNatives_eq {h : Handle} (hc : Entry.classOf h w = .ok c w)
    (entries : List NativeEntry) {n : Int32} (hn : ¬ n < 0) :
    registerNatives h (some entries) n w = registerEach c (tableOf entries n) w := by
  have hcapacity : (Entry.capacity n : Entry H Nat) w = .ok n.toInt.toNat w := by
    rw [Entry.capacity, if_neg hn]
    rfl
  rw [registerNatives, Action.bind_ok hc, Action.bind_ok hcapacity, tableOf]
  by_cases hz : n.toInt.toNat = 0
  · rw [if_pos hz, hz, List.take_zero, Nat.zero_sub, List.replicate_zero]
    rfl
  · rw [if_neg hz]

theorem unregisterNatives_eq (h : s.IsOf w) {handle : Handle}
    (hc : Entry.classOf handle w = .ok c w) :
    unregisterNatives handle w =
      .ok () { w with bridge := some (s.bridge.unregister s.registry c).2 } := by
  have hread : (Action.read World.registry : Entry H Registry) w = .ok s.registry w :=
    congrArg (fun r => Outcome.ok r w) h.registry
  rw [unregisterNatives, Action.bind_ok hc, Action.bind_ok hread]
  exact Entry.onBridge_ok h.bridge rfl

end World

/-! ## Bindings are what was recorded of them -/

/-- How a method without a binding is resolved after some events: it is bound to the function that was
last entered under its short symbol, or else under its long one, and no other method is bound;
without such a function nothing happens. -/
structure Links (es : List BindingEvent) (b : Bridge) (r : Registry) (m : MethodRef) : Prop where
  linked : ∀ address, lastLinked es r m = some address → ∃ binding b',
    b.resolve r m = .ok (binding, b') ∧ binding.address = address ∧
      b'.binding? r m = some binding ∧
      ∀ n, r.Declares n.owner n → n ≠ m → b'.binding? r n = b.binding? r n
  unlinked : lastLinked es r m = none →
    b.resolve r m = .error (.unsatisfied (r.describeMethod m) (Bridge.candidates r m))

theorem links_of_consistent {es : List BindingEvent} {b : Bridge} {r : Registry} {m : MethodRef}
    (h : b.Consistent r) (hr : r.Reachable) (hm : r.Declares m.owner m)
    (hlinked : b.linked? r m = lastLinked es r m) (hb : b.binding? r m = none) :
    Links es b r m := by
  rcases h.resolve_cases m with
    ⟨binding, hsome, -⟩ | ⟨-, address, signatures, ha, hs, hok⟩ | ⟨-, ha, herror⟩
  · rw [hb] at hsome
    cases hsome
  · rw [hlinked] at ha
    refine ⟨fun address' ha' => ?_, fun hnone => ?_⟩
    · rw [ha] at ha'
      cases ha'
      refine ⟨_, _, hok, rfl, ?_, fun n hn hne => ?_⟩
      · rw [Bridge.binding?_rebound, if_pos rfl]
      · rw [Bridge.binding?_rebound, if_neg (mt (hr.bindingKey_injective hn hm) hne)]
    · rw [ha] at hnone
      cases hnone
  · rw [hlinked] at ha
    refine ⟨fun address ha' => ?_, fun _ => herror⟩
    rw [ha] at ha'
    cases ha'

/-- What a binding that is answered for a method is good for: it is that method's, and a call runs
its function, whether or not its target is checked. -/
structure Targets (s : Bindings) (m : MethodRef) (binding : Binding) (b : Bridge) : Prop where
  method : binding.method = m
  params : binding.signature.params = (s.registry.method m).type.paramKinds
  result : binding.signature.result = (s.registry.method m).type.resultKind
  accepted : binding.checkTarget s.registry m = .ok ()
  state : (s.link m).bridge = b
  called : ∀ {H : Type} (w : World H), s.IsOf w → ∀ (native : NativeCode H) (call : Invoker H)
    (env : Env) (receiver : Option ObjectRef) (args : List Value),
    runMethod native call env m receiver args w =
      ((match receiver with
        | some o => pure o
        | none => Guest.mirror m.owner : Entry H ObjectRef) >>= fun o =>
          callBound native call env binding o args) { w with bridge := some b }

theorem targets_of_method {s : Bindings} {m : MethodRef} {binding : Binding} {b : Bridge}
    (hmethod : binding.method = m)
    (hsignature : binding.signature = .ofType (s.registry.method m).type)
    (hresolve : s.bridge.resolve s.registry m = .ok (binding, b))
    (hlink : (s.link m).bridge = b) : Targets s m binding b := by
  have haccepted : binding.checkTarget s.registry m = .ok () := by
    rw [Binding.checkTarget, if_pos hmethod]
  refine ⟨hmethod, by rw [hsignature]; rfl, by rw [hsignature]; rfl, haccepted, hlink, ?_⟩
  intro H w h native call env receiver args
  rw [← h.registry] at hresolve haccepted
  exact runMethod_eq h.bridge hresolve (fun _ => haccepted) native call env receiver args

/-- The bindings and the symbols of a state are those that its events say, and every operation changes
them as it should. -/
structure Bindings.AsRecorded (s : Bindings) : Prop where
  /-- A method has the address to which it was last bound since its class was last unregistered. -/
  address : ∀ m, s.registry.Declares m.owner m →
    (s.bridge.binding? s.registry m).map Binding.address = lastBound s.events m
  /-- A symbol has the function that was last entered under it. -/
  symbol : ∀ symbol, s.bridge.symbols.lookup symbol = lastEntered s.events symbol
  register : ∀ c name descriptor address,
    (∃ e, Bridge.Refused s.registry c name descriptor address e ∧
      s.bridge.register s.registry c name descriptor address = .error e ∧
      s.register? c name descriptor address = none) ∨
    ∃ m b, Registers s c name descriptor address m b
  /-- A table is registered up to its first entry that is refused. -/
  registerAll : ∀ {H : Type} (w : World H), s.IsOf w → ∀ h c, Entry.classOf h w = .ok c w →
    ∀ entries n, ¬ n < 0 → ∃ done rest, tableOf entries n = done ++ rest ∧
      done.foldlM (Bindings.enter? c) s = some (s.registerAll c (tableOf entries n)) ∧
      ((rest = [] ∧ Interface.registerNatives h (some entries) n w =
          .ok () { w with bridge := some (s.registerAll c (tableOf entries n)).bridge }) ∨
        ∃ entry after e, rest = entry :: after ∧
          (s.registerAll c (tableOf entries n)).enter? c entry = none ∧
          Interface.registerNatives h (some entries) n w =
            .error e { w with bridge := some (s.registerAll c (tableOf entries n)).bridge })
  /-- The methods of a class that is unregistered have no bindings and are linked again; no other
  method loses its binding, and no symbol its function. -/
  unregister : ∀ c, c.index < s.registry.size →
    (∀ m, s.registry.Declares m.owner m →
      (s.bridge.unregister s.registry c).2.binding? s.registry m =
        (if m.owner = c then none else s.bridge.binding? s.registry m) ∧
      (m.owner = c → Links s.events (s.bridge.unregister s.registry c).2 s.registry m)) ∧
    ∀ symbol, (s.bridge.unregister s.registry c).2.symbols.lookup symbol =
      lastEntered s.events symbol
  unregisterNatives : ∀ {H : Type} (w : World H), s.IsOf w → ∀ h c,
    Entry.classOf h w = .ok c w → Interface.unregisterNatives h w =
      .ok () { w with bridge := some (s.bridge.unregister s.registry c).2 }
  resolve : ∀ m, s.registry.Declares m.owner m →
    (∀ binding, s.bridge.binding? s.registry m = some binding →
      s.bridge.resolve s.registry m = .ok (binding, s.bridge)) ∧
    (s.bridge.binding? s.registry m = none → Links s.events s.bridge s.registry m)
  target : ∀ m, s.registry.Declares m.owner m → ∀ binding b,
    s.bridge.resolve s.registry m = .ok (binding, b) → Targets s m binding b

/-- Whatever is registered, unregistered, entered and called in whatever order, bindings and symbols
are as recorded, and every symbol that was entered is on record. -/
theorem bindings_are_recorded (config : Config) (ops : List BindingOp)
    (hops : ∀ op ∈ ops, op.Valid) :
    (Bindings.run config ops).AsRecorded ∧
      (Bindings.run config ops).events.filterMap BindingEvent.entry? =
        (ops.filterMap BindingOp.entry?).reverse := by
  refine ⟨?_, Bindings.entries_run config ops⟩
  have hs := Bindings.consistent_run config hops
  generalize Bindings.run config ops = s at hs
  have hsymbol : ∀ symbol, s.bridge.symbols.lookup symbol = lastEntered s.events symbol :=
    fun symbol => by rw [hs.symbols, lastEntered]
  constructor
  case address => exact hs.address
  case symbol => exact hsymbol
  case register => exact hs.register_cases
  case registerAll =>
    intro H w h handle c hc entries n hn
    rw [registerNatives_eq hc entries hn]
    exact registerEach_cases h hs c _
  case unregister =>
    refine fun c hc => ⟨fun m hm => ?_, hsymbol⟩
    have hdropped := hs.binding?_unregister hc hm
    refine ⟨hdropped, fun hmc => ?_⟩
    rw [if_pos hmc] at hdropped
    exact links_of_consistent (hs.bridge.filter _) hs.reachable hm (hs.linked?_eq m) hdropped
  case unregisterNatives => exact fun w h handle c => unregisterNatives_eq h
  case resolve =>
    refine fun m hm => ⟨fun binding hb => ?_,
      links_of_consistent hs.bridge hs.reachable hm (hs.linked?_eq m)⟩
    rw [Bridge.resolve, hb]
  case target =>
    intro m hm binding b hresolve
    rcases hs.bridge.resolve_cases m with
      ⟨binding', hb, hok⟩ | ⟨hb, address, signatures, ha, -, hok⟩ | ⟨-, -, herror⟩
    · have hlink : (s.link m).bridge = s.bridge := by
        rw [Bindings.link, hb]
      rw [hok] at hresolve
      cases hresolve
      obtain ⟨hmethod, hsignature⟩ := hs.bridge.of_binding? hs.reachable hm hb
      exact targets_of_method hmethod hsignature hok hlink
    · have hlink : (s.link m).bridge = s.bridge.rebound s.registry signatures
          ⟨m, address, .ofType (s.registry.method m).type⟩ := by
        rw [Bindings.link, hb, ha, hok]
      rw [hok] at hresolve
      cases hresolve
      exact targets_of_method rfl rfl hok hlink
    · rw [herror] at hresolve
      cases hresolve

/-- A class with a native method. -/
def clockSpec : ClassSpec :=
  ⟨"Clock", .concrete, some "java/lang/Object", [], [], [⟨"now", "()J", true, .native⟩]⟩

/-- The method is registered, unregistered and linked again. -/
def relink : List BindingOp :=
  [.define clockSpec, .addSymbol "Java_Clock_now" 7, .register "Clock" "now" "()J" 5,
    .unregister "Clock", .invoke "Clock" "now" "()J"]

theorem bindings_are_recorded_through_link :
    (∀ op ∈ relink, op.Valid) ∧ (Bindings.run .default relink).AsRecorded ∧
      lastEntered (Bindings.run .default relink).events "Java_Clock_now" = some 7 := by
  have hvalid : ∀ op ∈ relink, op.Valid := by
    intro op hop
    simp only [relink, List.mem_cons, List.not_mem_nil, or_false] at hop
    rcases hop with rfl | rfl | rfl | rfl | rfl
    · intro elements h
      cases h
    all_goals trivial
  obtain ⟨hrecorded, hentered⟩ := bindings_are_recorded .default relink hvalid
  exact ⟨hvalid, hrecorded, by rw [lastEntered, hentered]; rfl⟩

example : lastBound (Bindings.run .default relink).events ⟨⟨28⟩, 0⟩ = some 7 := by
  decide +kernel

end GuestBoundary.Native
