/-!
# Node constants

The members of the node's `utils/constant.py` that the modelled functions
read.
-/

namespace ProverNetwork.Ports

def PROVER_CIRCOM : String := "circom"
def PROVER_PRIVATE : String := "private"

def STATUS_CODE_SUCCESSFULLY : Int := 0
def STATUS_CODE_ERROR : Int := -1

def STATUS_CODE_TASK_NOT_FOUND : Int := 1000
def STATUS_CODE_TASK_INVALID : Int := 1001
def STATUS_CODE_UNSUPPORT_TASK_TYPE : Int := 1002
def STATUS_CODE_UNSUPPORT_PROVER : Int := 1003
def STATUS_CODE_UNSUPPORT_OAUTH_PROVIDER : Int := 1004
def STATUS_CODE_UNAUTHORIZED_PAYLOAD : Int := 1005
def STATUS_CODE_PROVER_NOT_RESPONSE : Int := 1006

def STATUS_CODE_PRIVATE_KEY_NOT_FOUND : Int := 2002
def STATUS_CODE_PRIVATE_KEY_INVALID : Int := 2003

def TASK_TYPE_ZKLOGIN : Int := 0
def TASK_TYPE_TIGA : Int := -1

def TASK_STATUS_PENGDING : Int := 0
def TASK_STATUS_RUNNING : Int := 1

/-- The first component of the pairs the node tests with `ok != True`: the
boolean `True`, or a status code. -/
inductive Ok
  | yes
  | code (n : Int)
  deriving DecidableEq, Repr

end ProverNetwork.Ports
