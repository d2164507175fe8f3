import VRJuggler.Io.ObjectStream

/-!
# Programs that read back what was written

A program reads back a value from some calls when, on every reader that answers the calls
with what was written, it returns the value and has made just these calls. One rule for
each way in which programs are put together.
-/
namespace VRJuggler.Io

variable {σ α β : Type}

/-- On a reader that answers the calls with the values written, the program returns `a`
and ends where the calls end. -/
def ReadsBack (rd : ObjectReader σ) (m : Reading σ α) (calls : List Call) (a : α) : Prop :=
  ∀ s t, rd.Replays s calls t → m s = (.ok a, t)

variable {rd : ObjectReader σ}

theorem readsBack_pure (a : α) : ReadsBack rd (pure a) [] a := by
  intro s t replays
  obtain rfl : s = t := replays
  rfl

theorem ReadsBack.bind {m : Reading σ α} {f : α → Reading σ β} {front rest : List Call} {a : α}
    {b : β} (first : ReadsBack rd m front a) (later : ReadsBack rd (f a) rest b) :
    ReadsBack rd (m >>= f) (front ++ rest) b := by
  intro s t replays
  obtain ⟨u, front, rest⟩ := ObjectReader.replays_append.mp replays
  rw [Reading.bind_of_ok (first s u front)]
  exact later u t rest

theorem readsBack_read (k : Kind) (val : k.Carrier) :
    ReadsBack rd (rd.read k) [.write k val] val := by
  rintro s t ⟨u, here, rfl⟩
  exact here

theorem readsBack_beginTag (tagName : String) :
    ReadsBack rd (rd.beginTag tagName) [.beginTag tagName] () := by
  rintro s t ⟨u, here, rfl⟩
  exact here

theorem readsBack_endTag : ReadsBack rd rd.endTag [.endTag] () := by
  rintro s t ⟨u, here, rfl⟩
  exact here

theorem readsBack_beginAttribute (attributeName : String) :
    ReadsBack rd (rd.beginAttribute attributeName) [.beginAttribute attributeName] () := by
  rintro s t ⟨u, here, rfl⟩
  exact here

theorem readsBack_endAttribute : ReadsBack rd rd.endAttribute [.endAttribute] () := by
  rintro s t ⟨u, here, rfl⟩
  exact here

/-- A loop over a body that reads one thing. -/
theorem readsBack_times {m : Reading σ α} {calls : β → List Call} {value : β → α} (bs : List β)
    (each : ∀ b ∈ bs, ReadsBack rd m (calls b) (value b)) :
    ReadsBack rd (Reading.times m bs.length) (bs.flatMap calls) (bs.map value) := by
  induction bs with
  | nil => exact readsBack_pure []
  | cons b bs ih =>
    have later := ih fun c member => each c (List.mem_cons_of_mem _ member)
    rw [List.flatMap_cons, ← List.append_nil (bs.flatMap calls)]
    exact (each b (List.mem_cons_self ..)).bind (later.bind (readsBack_pure _))

end VRJuggler.Io
