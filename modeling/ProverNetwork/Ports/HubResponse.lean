/-!
# Answers of the hub

The members of the hub's `utils/response.py` and of `HttpStatus` that the
modelled handlers use, and `http_response`.
-/

namespace ProverNetwork.Ports.HubResponse

/-- `Response`: a code and its message. -/
structure Code where
  code : Int
  msg : String
  deriving DecidableEq

def request_error : Code := ⟨-1000, "request error"⟩
def args_invalid : Code := ⟨-1002, "Arg invalid or isn't specified"⟩
def authorized_error : Code := ⟨-1005, "Permission invalid"⟩
def private_key_not_exist : Code := ⟨-1006, "Private key is not exist"⟩
def decryption_failed : Code := ⟨-1008, "Decryption failed"⟩
def register_failed : Code := ⟨-1009, "Register failed"⟩
def successfully : Code := ⟨0, "Successfully"⟩

def OK : Nat := 200
def INVALID_REQUEST : Nat := 400
def UNAUTHORIZED : Nat := 401
def SERVER_ERROR : Nat := 500

/-- The JSON object of an answer. -/
structure Body where
  code : Int
  msg : String
  results : Option String
  deriving DecidableEq

/-- A status, and the body if there is one. -/
structure HttpResponse where
  status : Nat
  body : Option Body
  deriving DecidableEq

/-- `http_response`. -/
def httpResponse (status : Nat) (c : Code) (results : Option String) : HttpResponse :=
  if c.code = 0 ∧ c.msg = "" then ⟨status, none⟩ else ⟨status, some ⟨c.code, c.msg, results⟩⟩

@[simp] theorem httpResponse_status (status : Nat) (c : Code) (results : Option String) :
    (httpResponse status c results).status = status := by
  unfold httpResponse
  split <;> rfl

end ProverNetwork.Ports.HubResponse
