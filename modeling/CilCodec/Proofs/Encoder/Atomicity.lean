import CilCodec.Proofs.Encoder.Run

/-!
# Encoders only grow

A request either appends to what an encoder holds or leaves it alone, and what it does is settled by
the opcode and the operand that it asks for. So a run leaves what was there and behind it what the
accepted requests append to an empty encoder, one after the other. The main statement is about runs
of any length on encoders that hold anything.
-/
namespace CilCodec

namespace Emit

/-- The opcode and the operand that the request asks for; a name can fail to be one of an opcode. -/
def subject : Emit → Except Error (Opcode × Operand)
  | named mnemonic operand => (Opcode.ofMnemonic mnemonic).map fun o => (o, operand.getD .none)
  | instruction i => .ok (i.opcode, i.operand)

/-- How the request goes on an empty encoder, and the encoder behind it. -/
def alone (request : Emit) : Emission × Encoder := Encoder.attempt request (.ofList [])

end Emit

namespace Encoder

/-- What became of a request to the encoder `e`, behind which the encoder is `e'`. -/
structure Emitted (e : Encoder) (request : Emit) (emission : Emission) (e' : Encoder) : Prop where
  /-- The answer is the one that an empty encoder gives. -/
  result_eq : emission.result = request.alone.1.result
  /-- An accepted request appends what it leaves in an empty encoder. -/
  appended : emission.result = .ok () → e'.toList = e.toList ++ request.alone.2.toList
  /-- A refused request changes nothing. -/
  unchanged : ∀ error, emission.result = .error error → e' = e
  position_eq : emission.position = e'.toList.length

variable {request : Emit} {requests : List Emit} {w : List UInt8} {e : Encoder}

theorem alone_of_ok (h : request.encode = .ok w) :
    request.alone.1.result = .ok () ∧ request.alone.2.toList = w := by
  rw [Emit.alone, attempt_of_ok h]
  exact ⟨rfl, toList_append (.ofList []) w⟩

theorem alone_of_error {error : Error} (h : request.encode = .error error) :
    request.alone.1.result = .error error ∧ request.alone.2.toList = [] := by
  rw [Emit.alone, attempt_of_error h]
  exact ⟨rfl, rfl⟩

theorem encode_eq_bind (request : Emit) :
    request.encode = request.subject.bind fun p => p.1.encode p.2 := by
  cases request with
  | named mnemonic operand =>
    rw [Emit.encode, Emit.subject]
    cases Opcode.ofMnemonic mnemonic <;> rfl
  | instruction i => rfl

theorem alone_of_subject_eq {other : Emit} (h : request.subject = other.subject) :
    request.alone = other.alone := by
  have hencode : request.encode = other.encode := by rw [encode_eq_bind, encode_eq_bind, h]
  cases hrequest : request.encode with
  | ok w =>
    rw [Emit.alone, Emit.alone, attempt_of_ok hrequest, attempt_of_ok (hencode ▸ hrequest)]
  | error error =>
    rw [Emit.alone, Emit.alone, attempt_of_error hrequest, attempt_of_error (hencode ▸ hrequest)]

theorem emitted_attempt (request : Emit) (e : Encoder) :
    Emitted e request (attempt request e).1 (attempt request e).2 := by
  cases h : request.encode with
  | ok w =>
    rcases alone_of_ok h with ⟨hresult, hbytes⟩
    rw [attempt_of_ok h]
    constructor
    case result_eq => exact hresult.symm
    case appended => exact fun _ => by rw [toList_append, hbytes]
    case unchanged => rintro error ⟨⟩
    case position_eq => rw [length_toList, position_append]
  | error error =>
    rcases alone_of_error h with ⟨hresult, -⟩
    rw [attempt_of_error h]
    constructor
    case result_eq => exact hresult.symm
    case appended => rintro ⟨⟩
    case unchanged => exact fun _ _ => rfl
    case position_eq => exact (length_toList e).symm

theorem run_append (front behind : List Emit) (e : Encoder) :
    run (front ++ behind) e =
      ((run front e).1 ++ (run behind (run front e).2).1, (run behind (run front e).2).2) := by
  induction front generalizing e with
  | nil => rfl
  | cons request front ih => rw [List.cons_append, run_cons, ih, run_cons, List.cons_append]

theorem length_run (requests : List Emit) (e : Encoder) :
    (run requests e).1.length = requests.length := by
  induction requests generalizing e with
  | nil => rfl
  | cons request requests ih => rw [run_cons, List.length_cons, List.length_cons, ih]

theorem emitted_run (front behind : List Emit) (request : Emit) (e : Encoder) :
    ∃ emission, (run (front ++ request :: behind) e).1[front.length]? = some emission ∧
      Emitted (run front e).2 request emission (run (front ++ [request]) e).2 := by
  refine ⟨(attempt request (run front e).2).1, ?_, ?_⟩
  · rw [run_append, run_cons, ← length_run front e, List.getElem?_append_right (Nat.le_refl _),
      Nat.sub_self, List.getElem?_cons_zero]
  · rw [run_append, run_cons]
    exact emitted_attempt request _

/-- The bytes that the accepted ones of the requests append. -/
def accepted (requests : List Emit) (emissions : List Emission) : List UInt8 :=
  ((requests.zip emissions).filter fun p => p.2.result.isOk).flatMap fun p => p.1.alone.2.toList

theorem accepted_cons_of_ok {emission : Emission} (h : emission.result = .ok ())
    (requests : List Emit) (emissions : List Emission) :
    accepted (request :: requests) (emission :: emissions) =
      request.alone.2.toList ++ accepted requests emissions := by
  rw [accepted, List.zip_cons_cons, List.filter_cons_of_pos (by rw [h]; rfl), List.flatMap_cons]
  rfl

theorem accepted_cons_of_error {emission : Emission} {error : Error}
    (h : emission.result = .error error) (requests : List Emit) (emissions : List Emission) :
    accepted (request :: requests) (emission :: emissions) = accepted requests emissions := by
  rw [accepted, List.zip_cons_cons, List.filter_cons_of_neg (by rw [h]; exact Bool.false_ne_true)]
  rfl

theorem toList_run (requests : List Emit) (e : Encoder) :
    (run requests e).2.toList = e.toList ++ accepted requests (run requests e).1 := by
  induction requests generalizing e with
  | nil => exact (List.append_nil _).symm
  | cons request requests ih =>
    have hstep := emitted_attempt request e
    rw [run_cons]
    cases hresult : (attempt request e).1.result with
    | ok _ => rw [ih, hstep.appended hresult, accepted_cons_of_ok hresult, List.append_assoc]
    | error error => rw [ih, hstep.unchanged error hresult, accepted_cons_of_error hresult]

/-- Every request of a run appends what it appends to an empty encoder, or changes nothing; the
run appends what its accepted requests append; and requests for the same opcode and operand do the
same. -/
theorem run_append_only (requests : List Emit) (e : Encoder) :
    (∀ front request behind, requests = front ++ request :: behind →
      ∃ emission, (run requests e).1[front.length]? = some emission ∧
        Emitted (run front e).2 request emission (run (front ++ [request]) e).2) ∧
      (run requests e).2.toList = e.toList ++ accepted requests (run requests e).1 ∧
      (run requests e).2.position = (run requests e).2.toList.length ∧
      ∀ request other : Emit, request.subject = other.subject → request.alone = other.alone := by
  refine ⟨?_, toList_run requests e, (length_toList _).symm, fun _ _ => alone_of_subject_eq⟩
  rintro front request behind rfl
  exact emitted_run front behind request e

end Encoder
end CilCodec
