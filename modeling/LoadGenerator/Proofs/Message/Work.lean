import LoadGenerator.Message.Work
import LoadGenerator.Proofs.Json.Returns

/-!
# Reading back the messages of the service

What the service gives is taken back from its JSON value as it was. What it is asked for comes back with the error rates that are read for those that were written, and otherwise as it was.
-/

namespace LoadGenerator.Message

open JsonCodec

/-! ## What the service gives -/

section

variable (d : Nat)

theorem WorkResponse.returns (response : WorkResponse) : codec.Returns (d + 1) response response :=
  RecordType.returns (.cons (.always (returns_string _ d)) <| .cons (.always (returns_bool _ d)) <| .cons (.always (returns_string _ d)) .nil)
    (by decide) (by simp) rfl

theorem WorkSummary.returns (summary : WorkSummary) : codec.Returns (d + 1) summary summary :=
  RecordType.returns
    (.cons (.always (returns_string _ d)) <| .cons (.always (returns_int32 _ d)) <| .cons (.always (returns_int32 _ d)) <|
      .cons (.always (returns_int32 _ d)) .nil)
    (by decide) (by simp) rfl

theorem PingReply.returns (reply : PingReply) : codec.Returns (d + 1) reply reply :=
  RecordType.returns (.cons (.always (returns_string _ d)) .nil) (by decide) (by simp) rfl

theorem Health.returns (health : Health) : codec.Returns (d + 1) health health := by
  have hversion : string.option.Returns d health.version health.version := by
    cases health.version with
    | none => exact returns_none _ d
    | some version => exact returns_some (returns_string version d) nofun
  have homitted : health.version.isNone = true → Presence.defaulted ≠ .required ∧ { record.blank with version := health.version } = record.blank := by
    intro hnone
    rw [Option.isNone_iff_eq_none.mp hnone]
    exact ⟨by decide, rfl⟩
  exact RecordType.returns (.cons (.always (returns_string _ d)) <| .cons (.of_returns hversion homitted) .nil) (by decide) (by simp) rfl

end

theorem WorkResponse.ofJson_toJson (response : WorkResponse) : WorkResponse.codec.ofJson (WorkResponse.codec.toJson response) = .ok response :=
  rfl

theorem PingReply.ofJson_toJson (reply : PingReply) : PingReply.codec.ofJson (PingReply.codec.toJson reply) = .ok reply := rfl

theorem Health.ofJson_toJson (health : Health) : Health.codec.ofJson (Health.codec.toJson health) = .ok health := by
  obtain ⟨status, version⟩ := health
  cases version <;> rfl

theorem WorkSummary.ofJson_toJson (summary : WorkSummary) : WorkSummary.codec.ofJson (WorkSummary.codec.toJson summary) = .ok summary := by
  have hint32 (n : Int32) := JsonNumber.isIntegral_ofInt32 n
  have hintegral : (codec.encode summary).IsIntegral := ⟨trivial, hint32 _, hint32 _, hint32 _, trivial⟩
  rw [toJson, ← Json.reread_of_isIntegral hintegral]
  exact (summary.returns 0).ofJson

/-! ## What it is asked for -/

/-- The config that is read where this one was written. -/
def WorkConfig.received (config : WorkConfig) : WorkConfig := { config with errorRate := config.errorRate.reread }

def WorkRequest.received (request : WorkRequest) : WorkRequest := { request with config := request.config.map WorkConfig.received }

def RepeatRequest.received (request : RepeatRequest) : RepeatRequest := { request with config := request.config.map WorkConfig.received }

/-- The error rate of the config, if there is one, is a number. -/
def HasFiniteRate (config : Option WorkConfig) : Prop := ∀ c ∈ config, c.errorRate.isFinite = true

theorem WorkConfig.returns {config : WorkConfig} (h : config.errorRate.isFinite = true) (d : Nat) : codec.Returns (d + 1) config config.received :=
  RecordType.returns
    (.cons (.always (returns_int32 _ d)) <| .cons (.always (returns_int64 _ d)) <| .cons (.always (returns_int32 _ d)) <|
      .cons (.always (returns_int32 _ d)) <| .cons (.always (returns_int32 _ d)) <| .cons (.always (returns_int64 _ d)) <|
      .cons (.always (returns_real h d)) .nil)
    (by decide) (by simp) rfl

private theorem returns_config {config : Option WorkConfig} (h : HasFiniteRate config) (d : Nat) :
    WorkConfig.codec.option.Returns (d + 1) config (config.map WorkConfig.received) := by
  cases config with
  | none => exact returns_none _ _
  | some config => exact returns_some (WorkConfig.returns (h config rfl) d) nofun

namespace WorkRequest

variable {request : WorkRequest} (h : HasFiniteRate request.config)

include h

theorem returns (d : Nat) : codec.Returns (d + 2) request request.received :=
  RecordType.returns (.cons (.always (returns_string _ _)) <| .cons (.always (returns_config h d)) .nil) (by decide) (by simp) rfl

theorem ofJson_reread : codec.ofJson (codec.toJson request).reread = .ok request.received := by
  rw [toJson, Json.reread_canonical]
  exact (returns h 0).ofJson

theorem isWritable_toJson : (codec.toJson request).IsWritable := Json.isWritable_canonical (returns h 0).writable

theorem depth_toJson : (codec.toJson request).depth ≤ 2 := (Json.depth_canonical_le _).trans (returns h 0).shallow

end WorkRequest

namespace RepeatRequest

variable {request : RepeatRequest} (h : HasFiniteRate request.config)

include h

theorem returns (d : Nat) : codec.Returns (d + 2) request request.received :=
  RecordType.returns
    (.cons (.always (returns_string _ _)) <| .cons (.always (returns_config h d)) <| .cons (.always (returns_int32 _ _)) .nil)
    (by decide) (by simp) rfl

theorem ofJson_reread : codec.ofJson (codec.toJson request).reread = .ok request.received := by
  rw [toJson, Json.reread_canonical]
  exact (returns h 0).ofJson

theorem isWritable_toJson : (codec.toJson request).IsWritable := Json.isWritable_canonical (returns h 0).writable

theorem depth_toJson : (codec.toJson request).depth ≤ 2 := (Json.depth_canonical_le _).trans (returns h 0).shallow

end RepeatRequest

end LoadGenerator.Message
