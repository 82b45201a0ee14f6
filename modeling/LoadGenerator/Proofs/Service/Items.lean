import LoadGenerator.Service.Call
import Mathlib.Tactic

/-!
# Runs one after another

What a list of requests gives when each is run after the one before it, whatever shape of call runs them: the responses, the draws that are left and the runs that are counted. A run looks at nothing but its config, the limits and the draws, so the responses do not depend on the books of the service.
-/

namespace LoadGenerator.Service

open Message

/-- The responses to requests that are run in order, and what the service shares after them. -/
def runItems (limits : Load.Limits) : Shared → List WorkRequest → List WorkResponse × Shared
  | shared, [] => ([], shared)
  | shared, request :: rest =>
    let (response, shared) := runItem limits shared request
    let (responses, shared) := runItems limits shared rest
    (response :: responses, shared)

/-- The first id that is not empty. -/
def firstId (requests : List WorkRequest) : String :=
  ((requests.map (·.requestId)).find? fun id => !id.isEmpty).getD ""

section

variable (limits : Load.Limits) (shared : Shared)

@[simp] theorem runItems_nil : runItems limits shared [] = ([], shared) := rfl

theorem runItems_cons (request : WorkRequest) (rest : List WorkRequest) :
    runItems limits shared (request :: rest) =
      ((runItem limits shared request).1 :: (runItems limits (runItem limits shared request).2 rest).1,
        (runItems limits (runItem limits shared request).2 rest).2) := rfl

@[simp] theorem length_runItems (requests : List WorkRequest) :
    (runItems limits shared requests).1.length = requests.length := by
  induction requests generalizing shared with
  | nil => rfl
  | cons request rest ih => simp [runItems_cons, ih]

theorem runItems_append (front back : List WorkRequest) :
    runItems limits shared (front ++ back) =
      ((runItems limits shared front).1 ++ (runItems limits (runItems limits shared front).2 back).1,
        (runItems limits (runItems limits shared front).2 back).2) := by
  induction front generalizing shared with
  | nil => rfl
  | cons request rest ih => simp [runItems_cons, ih]

end

/-! ## Summaries -/

/-- The summary after requests with their responses. -/
def tallyItems (summary : WorkSummary) (requests : List WorkRequest) (responses : List WorkResponse) : WorkSummary :=
  (requests.zip responses).foldl (fun summary (request, response) => tallyItem summary request response) summary

@[simp] theorem tallyItems_nil (summary : WorkSummary) (responses : List WorkResponse) :
    tallyItems summary [] responses = summary := rfl

@[simp] theorem tallyItems_cons (summary : WorkSummary) (request : WorkRequest) (rest : List WorkRequest)
    (response : WorkResponse) (responses : List WorkResponse) :
    tallyItems summary (request :: rest) (response :: responses) =
      tallyItems (tallyItem summary request response) rest responses := rfl

theorem tallyItems_requestId (summary : WorkSummary) (requests : List WorkRequest) (responses : List WorkResponse)
    (hlength : responses.length = requests.length) :
    (tallyItems summary requests responses).requestId =
      if summary.requestId.isEmpty then firstId requests else summary.requestId := by
  induction requests generalizing summary responses with
  | nil =>
    rw [tallyItems_nil]
    split
    · rename_i hempty
      simpa [firstId] using hempty
    · rfl
  | cons request rest ih =>
    obtain ⟨response, responses, rfl⟩ := List.exists_cons_of_length_eq_add_one hlength
    rw [tallyItems_cons, ih _ _ (by simpa using hlength)]
    by_cases hsummary : summary.requestId.isEmpty
    · by_cases hrequest : request.requestId.isEmpty <;> simp [tallyItem, firstId, hsummary, hrequest]
    · simp [tallyItem, hsummary]

theorem toInt_add_one (n : Int32) (room : Nat) (h : n.toInt + (room + 1) < 2147483648) (hn : 0 ≤ n.toInt) :
    (n + 1).toInt = n.toInt + 1 := by
  rw [Int32.toInt_add, show (1 : Int32).toInt = 1 from rfl]
  exact Int.bmod_eq_of_le (by omega) (by omega)

/-- Every item counts once, as a success or as a failure. -/
theorem tallyItems_counts (summary : WorkSummary) (requests : List WorkRequest) (responses : List WorkResponse)
    (hlength : responses.length = requests.length) (htotal : summary.total.toInt + requests.length < 2147483648)
    (hsuccess : 0 ≤ summary.success.toInt) (hfailed : 0 ≤ summary.failed.toInt)
    (hsum : summary.total.toInt = summary.success.toInt + summary.failed.toInt) :
    (tallyItems summary requests responses).total.toInt = summary.total.toInt + requests.length ∧
      (tallyItems summary requests responses).success.toInt = summary.success.toInt + responses.countP (·.ok) ∧
      (tallyItems summary requests responses).failed.toInt = summary.failed.toInt + responses.countP (!·.ok) := by
  induction requests generalizing summary responses with
  | nil =>
    obtain rfl := List.length_eq_zero_iff.mp hlength
    simp
  | cons request rest ih =>
    obtain ⟨response, responses, rfl⟩ := List.exists_cons_of_length_eq_add_one hlength
    rw [List.length_cons, Nat.cast_add, Nat.cast_one] at htotal
    have htotal' := toInt_add_one summary.total rest.length (by omega) (by omega)
    cases hok : response.ok with
    | true =>
      have hsuccess' := toInt_add_one summary.success rest.length (by omega) hsuccess
      obtain ⟨h₁, h₂, h₃⟩ := ih (tallyItem summary request response) responses (by simpa using hlength)
        (by simp only [tallyItem]; omega) (by simp only [tallyItem, hok, if_true]; omega)
        (by simpa [tallyItem, hok] using hfailed) (by simp only [tallyItem, hok, if_true]; omega)
      rw [tallyItems_cons, h₁, h₂, h₃]
      simp only [tallyItem, hok, if_true, List.length_cons, Nat.cast_add, Nat.cast_one, List.countP_cons, Bool.not_true,
        Bool.false_eq_true, if_false, Nat.cast_zero]
      omega
    | false =>
      have hfailed' := toInt_add_one summary.failed rest.length (by omega) hfailed
      obtain ⟨h₁, h₂, h₃⟩ := ih (tallyItem summary request response) responses (by simpa using hlength)
        (by simp only [tallyItem]; omega) (by simpa [tallyItem, hok] using hsuccess)
        (by simp only [tallyItem, hok, Bool.false_eq_true, if_false]; omega)
        (by simp only [tallyItem, hok, Bool.false_eq_true, if_false]; omega)
      rw [tallyItems_cons, h₁, h₂, h₃]
      simp only [tallyItem, hok, List.length_cons, Nat.cast_add, Nat.cast_one, List.countP_cons, Bool.not_false,
        Bool.false_eq_true, if_false, if_true, Nat.cast_zero]
      omega

/-- The summary of requests whose number fits 32 bits: their number, how many succeeded and failed, and the first id that is not empty. -/
theorem summary_spec (requests : List WorkRequest) (responses : List WorkResponse)
    (hlength : responses.length = requests.length) (hbound : requests.length < 2147483648) :
    (tallyItems {} requests responses).total.toInt = requests.length ∧
      (tallyItems {} requests responses).success.toInt = responses.countP (·.ok) ∧
      (tallyItems {} requests responses).failed.toInt = responses.countP (!·.ok) ∧
      (tallyItems {} requests responses).requestId = firstId requests := by
  have hzero : (0 : Int32).toInt = 0 := rfl
  obtain ⟨h₁, h₂, h₃⟩ := tallyItems_counts {} requests responses hlength (by simp only [hzero]; omega)
    (by simp [hzero]) (by simp [hzero]) (by simp [hzero])
  refine ⟨by simpa [hzero] using h₁, by simpa [hzero] using h₂, by simpa [hzero] using h₃, ?_⟩
  rw [tallyItems_requestId _ _ _ hlength]
  simp

end LoadGenerator.Service
