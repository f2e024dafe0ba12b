import DeviceConnector.Proofs.Host.Operation
/-!
# A host at its site

The surroundings of a host that its own state does not show: which connections are open, which
entities there are, which vDCs have been accepted and withdrawn so far, and where in the outbox the
present session begins. A rule says which operations may happen; executions obey it at every step.
-/

namespace DeviceConnector

structure Site where
  host : Host
  links : List Link := []
  /-- The entity of the host, and those that the application has made. -/
  made : List Entity
  accepted : List Vdc := []
  /-- Accepted vDCs that were a device of another vDC as well, or of their own, and have been
  removed there. -/
  withdrawn : List Vdc := []
  /-- Number of bodies that had been queued when the frame arrived that began the session. -/
  mark : Nat := 0

namespace Site

def initial (config : HostConfig) (codec : BodyCodec) : Site :=
  { host := Host.new config codec, made := [.host 0 config.hostDsuid config.name] }

def next (s : Site) (op : Operation) : Site where
  host := s.host.perform op
  links := match op with
    | .connect id => (s.host.openLink id).1 :: s.links
    | .detach id => s.links.filter (·.id ≠ id)
    | _ => s.links
  made := match op with
    | .create kind dsuid name => .ofKind kind s.host.objects dsuid name :: s.made
    | _ => s.made
  accepted := match op with
    | .addVdc vdc => if (s.host.addVdc vdc).1 then vdc :: s.accepted else s.accepted
    | _ => s.accepted
  withdrawn := match op with
    | .removeDevice vdc dsuid =>
      match s.host.device? vdc dsuid with
      | some (.vdc device) =>
        if (s.host.vdcState vdc.object).attached ∧ device ∈ s.accepted then
          device :: s.withdrawn
        else s.withdrawn
      | _ => s.withdrawn
    | _ => s.withdrawn
  mark := if s.host.session.isNone then s.host.outbox.length else s.mark

def Lasting (s : Site) (dsuid : Dsuid) : Prop := ∀ gone ∈ s.withdrawn, gone.dsuid ≠ dsuid

@[simp]
theorem next_host (s : Site) (op : Operation) : (s.next op).host = s.host.perform op := rfl

/-- Frames arrive over open connections only, and a connection begins under an id that no open one
has. Everything else may happen at any time. -/
def Wired (s : Site) : Operation → Prop
  | .connect id => ∀ link ∈ s.links, link.id ≠ id
  | .frame link _ => link ∈ s.links
  | _ => True

instance (s : Site) (op : Operation) : Decidable (Wired s op) := by
  cases op <;> simp only [Wired] <;> infer_instance

inductive Execution (rule : Site → Operation → Prop) : Site → Site → Prop where
  | refl (s) : Execution rule s s
  | tail {s t op} : Execution rule s t → rule t op → Execution rule s (t.next op)

def Reachable (rule : Site → Operation → Prop) (config : HostConfig) (codec : BodyCodec)
    (s : Site) : Prop :=
  Execution rule (initial config codec) s

variable {rule : Site → Operation → Prop} {config : HostConfig} {codec : BodyCodec}

theorem Execution.preserves {P : Site → Prop} {s t : Site} (path : Execution rule s t)
    (begin : P s) (step : ∀ s op, P s → rule s op → P (s.next op)) : P t := by
  induction path with
  | refl => exact begin
  | tail _ obeyed ih => exact step _ _ ih obeyed

/-- What holds of a new host and survives every operation that obeys the rule holds throughout. -/
theorem reachable_induction {P : Site → Prop} (begin : P (initial config codec))
    (step : ∀ s op, P s → rule s op → P (s.next op)) {s : Site}
    (reachable : Reachable rule config codec s) : P s :=
  reachable.preserves begin step

def run (s : Site) (operations : List Operation) : Site := operations.foldl next s

@[simp]
theorem run_host (s : Site) (operations : List Operation) :
    (s.run operations).host = s.host.run operations := by
  induction operations generalizing s with
  | nil => rfl
  | cons op operations ih => exact ih (s.next op)

def Obeys (rule : Site → Operation → Prop) (s : Site) : List Operation → Prop
  | [] => True
  | op :: operations => rule s op ∧ Obeys rule (s.next op) operations

instance decidableObeys [∀ s op, Decidable (rule s op)] :
    ∀ (s : Site) (operations : List Operation), Decidable (Obeys rule s operations)
  | _, [] => isTrue trivial
  | s, op :: operations =>
    have := decidableObeys (s.next op) operations
    inferInstanceAs (Decidable (rule s op ∧ Obeys rule (s.next op) operations))

theorem Execution.run {s t : Site} {operations : List Operation} (path : Execution rule s t)
    (obeyed : Obeys rule t operations) : Execution rule s (t.run operations) := by
  induction operations generalizing t with
  | nil => exact path
  | cons op operations ih => exact ih (path.tail obeyed.1) obeyed.2

def after (s : Site) (operations : List Operation) (count : Nat) : Site :=
  s.run (operations.take count)

variable {s : Site} {operations : List Operation} {count : Nat} {op : Operation}

theorem after_succ (here : operations[count]? = some op) :
    s.after operations (count + 1) = (s.after operations count).next op := by
  unfold after
  rw [List.take_add_one, here]
  exact List.foldl_append ..

theorem after_beyond (beyond : operations[count]? = none) :
    s.after operations (count + 1) = s.after operations count := by
  unfold after
  rw [List.take_add_one, beyond, Option.toList_none, List.append_nil]

theorem Obeys.there (obeyed : Obeys rule s operations) (here : operations[count]? = some op) :
    rule (s.after operations count) op := by
  induction operations generalizing s count with
  | nil => cases here
  | cons first operations ih =>
    cases count with
    | zero =>
      obtain rfl := Option.some.inj here
      exact obeyed.1
    | succ count => exact ih obeyed.2 here

theorem Obeys.execution (obeyed : Obeys rule s operations) (count : Nat) :
    Execution rule s (s.after operations count) := by
  induction count with
  | zero => exact Execution.refl _
  | succ count ih =>
    cases here : operations[count]? with
    | none =>
      rw [after_beyond here]
      exact ih
    | some op =>
      rw [after_succ here]
      exact ih.tail (obeyed.there here)

theorem Obeys.reachable (obeyed : Obeys rule (initial config codec) operations) (count : Nat) :
    Reachable rule config codec ((initial config codec).after operations count) :=
  obeyed.execution count

end Site

end DeviceConnector
