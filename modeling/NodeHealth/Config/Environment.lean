import NodeHealth.Config.Basic
import NodeHealth.Text.Blank
import NodeHealth.Text.Numeral

/-!
# Configuration from the environment

Ten variables override fields of a configuration. `Config.overlay` reads them; a variable
whose value cannot be used changes nothing.
-/

namespace NodeHealth

/-- The variables that are looked at. -/
inductive Variable
  | healthEnable
  | healthPort
  | bindAddr
  | advertiseIp
  | registrationEnable
  | registrationIp
  | registrationPort
  | cnodeEnable
  | cnodeIp
  | cnodePort
  deriving DecidableEq, Repr

/-- All variables. -/
def Variable.all : List Variable :=
  [healthEnable, healthPort, bindAddr, advertiseIp, registrationEnable, registrationIp,
    registrationPort, cnodeEnable, cnodeIp, cnodePort]

/-- The name of a variable. -/
def Variable.name : Variable → String
  | healthEnable => "AMF_GRPC_ENABLE"
  | healthPort => "AMF_GRPC_PORT"
  | bindAddr => "AMF_GRPC_BIND_ADDR"
  | advertiseIp => "AMF_GRPC_ADVERTISE_IP"
  | registrationEnable => "AMF_GRPC_REGISTRATION_ENABLE"
  | registrationIp => "AMF_GRPC_REGISTRATION_SERVER_IP"
  | registrationPort => "AMF_GRPC_REGISTRATION_SERVER_PORT"
  | cnodeEnable => "AMF_CNODE_ENABLE"
  | cnodeIp => "AMF_CNODE_SERVER_IP"
  | cnodePort => "AMF_CNODE_SERVER_PORT"

/-- The values of the variables that are set. -/
abbrev Environment := Variable → Option String

namespace Environment

/-- The environment of a list of names and values, of which the first of a name counts. -/
def ofList (entries : List (String × String)) : Environment :=
  fun v => entries.lookup v.name

/-- A switch is on exactly for the text `1`. -/
def switch (text : String) : Bool :=
  text = "1"

/-- The port that a text names: a positive number of 16 bits, with blanks around it and a
plus sign before it allowed. -/
def port? (text : String) : Option UInt16 :=
  let digits := match Text.trimBlank text.toList with
    | '+' :: rest => rest
    | text => text
  match Text.decimal? digits with
  | some value => if 0 < value ∧ value < UInt16.size then some (UInt16.ofNat value) else none
  | none => none

end Environment

open Environment in
/-- Override the fields whose variables have a usable value. -/
def Config.overlay (config : Config) (environment : Environment) : Config :=
  let server := config.server
  let registration := server.registration
  let cnode := config.cnode
  let switched := fun v old => ((environment v).map switch).getD old
  { config with
    server :=
      { server with
        enable := switched .healthEnable server.enable
        bindAddr := ((environment .bindAddr).bind nonEmpty?).getD server.bindAddr
        advertiseIp := ((environment .advertiseIp).bind nonEmpty?).or server.advertiseIp
        port := ((environment .healthPort).bind port?).getD server.port
        registration :=
          { registration with
            enable := switched .registrationEnable registration.enable
            serverIp := ((environment .registrationIp).map nonEmpty?).getD registration.serverIp
            serverPort :=
              ((environment .registrationPort).bind port?).or registration.serverPort } }
    cnode :=
      { cnode with
        enable := switched .cnodeEnable cnode.enable
        serverIp := ((environment .cnodeIp).map nonEmpty?).getD cnode.serverIp
        serverPort := ((environment .cnodePort).bind port?).getD cnode.serverPort } }

end NodeHealth
