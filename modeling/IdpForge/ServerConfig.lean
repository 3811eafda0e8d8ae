import IdpForge.GoStrconv
import IdpForge.PasswordOrigins

/-!
# The Configuration

`Load` reads the configuration from environment variables. A variable that is not set or empty, or
that does not read as a number, a truth value or a duration, leaves the default in place; what does
read is taken as it is. At startup some of the values reach primitives that panic on others than
positive or non-negative ones.

## Main results

* `getEnvWith_eq`: a variable is read, or the default stays.
* `load_eq_ok`: an accepted configuration is what the variables give.
* `startupCalls_inRange_iff`: what the primitives need of a configuration.
* `startup_ok_iff`: which environments give it to them.
-/

open GoStrconv

namespace IdpForge

/-- `config.HTTPConfig`. -/
structure HTTPConfig where
  listenAddr : String
  baseURL : String
  deriving DecidableEq, Repr

/-- `config.DBConfig`. -/
structure DBConfig where
  driver : DBDriver
  dsn : String
  maxOpenConns : Int
  maxIdleConns : Int
  connMaxLifetime : Int
  deriving DecidableEq, Repr

/-- `config.RedisConfig`. -/
structure RedisConfig where
  addr : String
  password : String
  db : Int
  enabled : Bool
  deriving DecidableEq, Repr

/-- `config.AuditConfig`. -/
structure AuditSettings where
  batchSize : Int
  flushInterval : Int
  queueSize : Int
  deriving DecidableEq, Repr

/-- `config.CaptchaConfig`. -/
structure CaptchaConfig where
  provider : String
  siteKey : String
  secretKey : String
  deriving DecidableEq, Repr

/-- `config.OIDCConfig`. -/
structure OIDCSettings where
  issuer : String
  signingKeyPath : String
  accessTokenTTL : Int
  idTokenTTL : Int
  refreshTokenTTL : Int
  deriving DecidableEq, Repr

/-- `config.BackupConfig`. -/
structure BackupConfig where
  enabled : Bool
  dir : String
  schedule : String
  retention : Int
  deriving DecidableEq, Repr

/-- `config.PathsConfig`. -/
structure PathsConfig where
  configDir : String
  dataDir : String
  logDir : String
  deriving DecidableEq, Repr

/-- `config.RateLimitConfig`. -/
structure RateLimitConfig where
  enabled : Bool
  max : Int
  window : Int
  loginMax : Int
  loginWindow : Int
  deriving DecidableEq, Repr

/-- `config.StorageConfig`. -/
structure StorageConfig where
  backend : String
  localDir : String
  s3Endpoint : String
  s3Bucket : String
  s3AccessKey : String
  s3SecretKey : String
  s3UseSSL : Bool
  s3PublicBaseURL : String
  deriving DecidableEq, Repr

/-- `config.UpdateCheckConfig`. -/
structure UpdateCheckConfig where
  enabled : Bool
  interval : Int
  deriving DecidableEq, Repr

/-- `config.AccountLockoutConfig`. -/
structure AccountLockoutConfig where
  maxAttempts : Int
  window : Int
  duration : Int
  deriving DecidableEq, Repr

/-- `config.Config`. Durations are in nanoseconds. -/
structure Config where
  env : String
  http : HTTPConfig
  db : DBConfig
  redis : RedisConfig
  audit : AuditSettings
  captcha : CaptchaConfig
  oidc : OIDCSettings
  backup : BackupConfig
  paths : PathsConfig
  rateLimit : RateLimitConfig
  storage : StorageConfig
  bootstrap : BootstrapConfig
  passwordExpiryDays : Int
  defaultPassword : String
  passwordPolicy : PasswordPolicy
  timezone : String
  updateCheck : UpdateCheckConfig
  accountLockout : AccountLockoutConfig
  deriving DecidableEq, Repr

/-- A `time.Minute`. -/
def minute : Int := 60000000000

/-- A `time.Hour`. -/
def hour : Int := 60 * minute

/-- The operating system and the libraries that `Load` calls. -/
structure Platform where
  windows : Bool
  /-- `filepath.Join`. -/
  joinPath : List String → String
  /-- `time.ParseDuration`. -/
  parseDuration : String → Option Int
  /-- `time.LoadLocation`, as far as its error goes. -/
  loadLocation : String → Except String Unit
  /-- `%q` of a string. -/
  quote : String → String

/-- The environment variables: what `os.LookupEnv` answers. -/
abbrev EnvVars := String → Option String

section Load

variable (p : Platform) (env : EnvVars)

/-- The value of a variable that is set, not empty and read. -/
def readEnv {α : Type} (parse : String → Option α) (key : String) : Option α :=
  (env key).bind fun v => if v = "" then none else parse v

/-- `getEnv`. -/
def getEnv (key fallback : String) : String :=
  match env key with
  | some v => if v ≠ "" then v else fallback
  | none => fallback

/-- What the readers of values share: the text of a variable is read, and the default stays if it is
not set, empty or not read. -/
def getEnvWith {α : Type} (parse : String → Option α) (key : String) (fallback : α) : α :=
  match env key with
  | none => fallback
  | some v =>
      if v = "" then fallback
      else
        match parse v with
        | none => fallback
        | some x => x

/-- `getEnvInt`. -/
def getEnvInt (key : String) (fallback : Int) : Int := getEnvWith env atoi key fallback

/-- `getEnvBool`. -/
def getEnvBool (key : String) (fallback : Bool) : Bool := getEnvWith env parseBool key fallback

/-- `getEnvDuration`. -/
def getEnvDuration (key : String) (fallback : Int) : Int :=
  getEnvWith env p.parseDuration key fallback

/-- `os.Getenv`. -/
def osGetenv (key : String) : String := (env key).getD ""

/-- `%ProgramData%`. -/
def programData : String :=
  if osGetenv env "ProgramData" = "" then "C:\\ProgramData" else osGetenv env "ProgramData"

/-- `defaultConfigDir`. -/
def defaultConfigDir : String :=
  if p.windows then p.joinPath [programData env, "idpforge"]
  else if osGetenv env "XDG_CONFIG_HOME" ≠ "" then
    p.joinPath [osGetenv env "XDG_CONFIG_HOME", "idpforge"]
  else p.joinPath ["/etc", "idpforge"]

/-- `defaultDataDir`. -/
def defaultDataDir : String :=
  if p.windows then p.joinPath [programData env, "idpforge", "data"]
  else if osGetenv env "XDG_DATA_HOME" ≠ "" then
    p.joinPath [osGetenv env "XDG_DATA_HOME", "idpforge"]
  else p.joinPath ["/var", "lib", "idpforge"]

/-- `defaultLogDir`. -/
def defaultLogDir : String :=
  if p.windows then p.joinPath [programData env, "idpforge", "logs"]
  else p.joinPath ["/var", "log", "idpforge"]

/-- `defaultBackupDir`. -/
def defaultBackupDir : String := p.joinPath [defaultDataDir p env, "backups"]

/-- `defaultAvatarDir`. -/
def defaultAvatarDir : String := p.joinPath [defaultDataDir p env, "avatars"]

/-- `defaultSigningKeyPath`. -/
def defaultSigningKeyPath : String := p.joinPath [defaultConfigDir p env, "oidc-signing-key.pem"]

/-- The driver of a text, if it is one of the four. -/
def DBDriver.ofText (s : String) : Option DBDriver :=
  if s = "postgres" then some .postgres
  else if s = "mysql" then some .mysql
  else if s = "mssql" then some .mssql
  else if s = "sqlite" then some .sqlite
  else none

/-- The configuration that the variables give, with this driver. -/
def readConfig (driver : DBDriver) : Config where
  env := getEnv env "IDPFORGE_ENV" "development"
  http :=
    { listenAddr := getEnv env "IDPFORGE_LISTEN_ADDR" ":8080"
      baseURL := getEnv env "IDPFORGE_BASE_URL" "http://localhost:8080" }
  db :=
    { driver
      dsn := getEnv env "IDPFORGE_DB_DSN" ""
      maxOpenConns := getEnvInt env "IDPFORGE_DB_MAX_OPEN_CONNS" 25
      maxIdleConns := getEnvInt env "IDPFORGE_DB_MAX_IDLE_CONNS" 5
      connMaxLifetime := getEnvDuration p env "IDPFORGE_DB_CONN_MAX_LIFETIME" (30 * minute) }
  redis :=
    { addr := getEnv env "IDPFORGE_REDIS_ADDR" "localhost:6379"
      password := getEnv env "IDPFORGE_REDIS_PASSWORD" ""
      db := getEnvInt env "IDPFORGE_REDIS_DB" 0
      enabled := getEnvBool env "IDPFORGE_REDIS_ENABLED" true }
  audit :=
    { batchSize := getEnvInt env "IDPFORGE_AUDIT_BATCH_SIZE" 100
      flushInterval := getEnvDuration p env "IDPFORGE_AUDIT_FLUSH_INTERVAL" 2000000000
      queueSize := getEnvInt env "IDPFORGE_AUDIT_QUEUE_SIZE" 10000 }
  captcha :=
    { provider := getEnv env "IDPFORGE_CAPTCHA_PROVIDER" "none"
      siteKey := getEnv env "IDPFORGE_CAPTCHA_SITE_KEY" ""
      secretKey := getEnv env "IDPFORGE_CAPTCHA_SECRET_KEY" "" }
  oidc :=
    { issuer := getEnv env "IDPFORGE_OIDC_ISSUER" "http://localhost:8080"
      signingKeyPath := getEnv env "IDPFORGE_OIDC_SIGNING_KEY" (defaultSigningKeyPath p env)
      accessTokenTTL := getEnvDuration p env "IDPFORGE_OIDC_ACCESS_TTL" (15 * minute)
      idTokenTTL := getEnvDuration p env "IDPFORGE_OIDC_ID_TTL" (15 * minute)
      refreshTokenTTL := getEnvDuration p env "IDPFORGE_OIDC_REFRESH_TTL" (30 * 24 * hour) }
  backup :=
    { enabled := getEnvBool env "IDPFORGE_BACKUP_ENABLED" false
      dir := getEnv env "IDPFORGE_BACKUP_DIR" (defaultBackupDir p env)
      schedule := getEnv env "IDPFORGE_BACKUP_SCHEDULE" "0 3 * * *"
      retention := getEnvInt env "IDPFORGE_BACKUP_RETENTION_DAYS" 14 }
  paths :=
    { configDir := getEnv env "IDPFORGE_CONFIG_DIR" (defaultConfigDir p env)
      dataDir := getEnv env "IDPFORGE_DATA_DIR" (defaultDataDir p env)
      logDir := getEnv env "IDPFORGE_LOG_DIR" (defaultLogDir p env) }
  rateLimit :=
    { enabled := getEnvBool env "IDPFORGE_RATELIMIT_ENABLED" true
      max := getEnvInt env "IDPFORGE_RATELIMIT_MAX" 300
      window := getEnvDuration p env "IDPFORGE_RATELIMIT_WINDOW" minute
      loginMax := getEnvInt env "IDPFORGE_RATELIMIT_LOGIN_MAX" 10
      loginWindow := getEnvDuration p env "IDPFORGE_RATELIMIT_LOGIN_WINDOW" minute }
  storage :=
    { backend := getEnv env "IDPFORGE_STORAGE_BACKEND" "local"
      localDir := getEnv env "IDPFORGE_STORAGE_LOCAL_DIR" (defaultAvatarDir p env)
      s3Endpoint := getEnv env "IDPFORGE_STORAGE_S3_ENDPOINT" ""
      s3Bucket := getEnv env "IDPFORGE_STORAGE_S3_BUCKET" "idpforge-avatars"
      s3AccessKey := getEnv env "IDPFORGE_STORAGE_S3_ACCESS_KEY" ""
      s3SecretKey := getEnv env "IDPFORGE_STORAGE_S3_SECRET_KEY" ""
      s3UseSSL := getEnvBool env "IDPFORGE_STORAGE_S3_USE_SSL" true
      s3PublicBaseURL := getEnv env "IDPFORGE_STORAGE_S3_PUBLIC_BASE_URL" "" }
  bootstrap :=
    { adminUsername := getEnv env "IDPFORGE_BOOTSTRAP_ADMIN_USERNAME" "admin"
      adminEmail := getEnv env "IDPFORGE_BOOTSTRAP_ADMIN_EMAIL" "admin@localhost"
      adminPassword := getEnv env "IDPFORGE_BOOTSTRAP_ADMIN_PASSWORD" "" }
  passwordExpiryDays := getEnvInt env "IDPFORGE_PASSWORD_EXPIRY_DAYS" 0
  defaultPassword := getEnv env "IDPFORGE_DEFAULT_PASSWORD" ""
  passwordPolicy :=
    { minLength := getEnvInt env "IDPFORGE_PASSWORD_MIN_LENGTH" 8
      requireUppercase := getEnvBool env "IDPFORGE_PASSWORD_REQUIRE_UPPERCASE" true
      requireLowercase := getEnvBool env "IDPFORGE_PASSWORD_REQUIRE_LOWERCASE" true
      requireNumber := getEnvBool env "IDPFORGE_PASSWORD_REQUIRE_NUMBER" true
      requireSpecial := getEnvBool env "IDPFORGE_PASSWORD_REQUIRE_SPECIAL" true }
  timezone := getEnv env "IDPFORGE_TIMEZONE" "UTC"
  updateCheck :=
    { enabled := getEnvBool env "IDPFORGE_UPDATE_CHECK_ENABLED" true
      interval := getEnvDuration p env "IDPFORGE_UPDATE_CHECK_INTERVAL" (24 * hour) }
  accountLockout :=
    { maxAttempts := getEnvInt env "IDPFORGE_ACCOUNT_LOCKOUT_MAX_ATTEMPTS" 5
      window := getEnvDuration p env "IDPFORGE_ACCOUNT_LOCKOUT_WINDOW" (15 * minute)
      duration := getEnvDuration p env "IDPFORGE_ACCOUNT_LOCKOUT_DURATION" (15 * minute) }

/-- `Load`. -/
def load : Except String Config :=
  let backend := getEnv env "IDPFORGE_STORAGE_BACKEND" "local"
  let timezone := getEnv env "IDPFORGE_TIMEZONE" "UTC"
  let driver := getEnv env "IDPFORGE_DB_DRIVER" "postgres"
  if backend ≠ "local" ∧ backend ≠ "s3" then
    .error ("unsupported IDPFORGE_STORAGE_BACKEND " ++ p.quote backend ++ " (want local|s3)")
  else
    match p.loadLocation timezone with
    | .error err => .error ("invalid IDPFORGE_TIMEZONE " ++ p.quote timezone ++ ": " ++ err)
    | .ok () =>
        if getEnv env "IDPFORGE_DB_DSN" "" = "" then .error "IDPFORGE_DB_DSN is required"
        else
          match DBDriver.ofText driver with
          | none =>
              .error ("unsupported IDPFORGE_DB_DRIVER " ++ p.quote driver ++
                " (want postgres|mysql|mssql|sqlite)")
          | some driver => .ok (readConfig p env driver)

/-! ### Reading a variable -/

/-- A variable is read, or the default stays. -/
theorem getEnvWith_eq {α : Type} (parse : String → Option α) (key : String) (fallback : α) :
    getEnvWith env parse key fallback = (readEnv env parse key).getD fallback := by
  rw [getEnvWith, readEnv]
  split
  · next hnone => rw [hnone]; rfl
  · next v hv =>
      rw [hv, Option.bind_some]
      split
      · rfl
      · cases parse v <;> rfl

/-- What holds of the default holds of the value if it holds of what is read. -/
theorem getEnvWith_iff {α : Type} {parse : String → Option α} {key : String} {fallback : α}
    {P : α → Prop} (hfallback : P fallback) :
    P (getEnvWith env parse key fallback) ↔ ∀ x ∈ readEnv env parse key, P x := by
  rw [getEnvWith_eq]
  cases readEnv env parse key with
  | none => simpa using hfallback
  | some x => simp

/-- An accepted configuration is what the variables give. -/
theorem load_eq_ok {cfg : Config} (h : load p env = .ok cfg) :
    ∃ driver, cfg = readConfig p env driver := by
  rw [load] at h
  split at h
  · cases h
  · split at h
    · cases h
    · split at h
      · cases h
      · split at h
        · cases h
        · next driver _ => exact ⟨driver, (Except.ok.inj h).symm⟩

end Load

/-! ### Startup -/

/-- A call of a primitive that panics on some values. -/
inductive PrimitiveCall where
  /-- `time.NewTicker`. -/
  | newTicker (interval : Int)
  /-- `make` of a channel. -/
  | makeChan (size : Int)
  /-- `make` of a slice with a capacity. -/
  | makeSlice (cap : Int)
  deriving DecidableEq, Repr

/-- The value is in range. -/
def PrimitiveCall.InRange : PrimitiveCall → Prop
  | .newTicker interval => 0 < interval
  | .makeChan size => 0 ≤ size
  | .makeSlice cap => 0 ≤ cap

/-- Whether a value is in range is decided by its sign. -/
instance PrimitiveCall.InRange.decidable : ∀ c : PrimitiveCall, Decidable c.InRange
  | .newTicker interval => inferInstanceAs (Decidable (0 < interval))
  | .makeChan size => inferInstanceAs (Decidable (0 ≤ size))
  | .makeSlice cap => inferInstanceAs (Decidable (0 ≤ cap))

/-- `audit.NewWriter`. -/
def newWriterCalls (audit : AuditSettings) : List PrimitiveCall := [.makeChan audit.queueSize]

/-- The loop of the audit writer, before it begins. -/
def writerRunCalls (audit : AuditSettings) : List PrimitiveCall :=
  [.newTicker audit.flushInterval, .makeSlice audit.batchSize]

/-- `runUpdateChecker`, before its loop begins. -/
def runUpdateCheckerCalls (updateCheck : UpdateCheckConfig) : List PrimitiveCall :=
  [.newTicker updateCheck.interval]

/-- What the configuration feeds to such primitives at startup. -/
def startupCalls (cfg : Config) : List PrimitiveCall :=
  newWriterCalls cfg.audit ++ writerRunCalls cfg.audit ++
    if cfg.updateCheck.enabled then runUpdateCheckerCalls cfg.updateCheck else []

/-- What the primitives need of a configuration. -/
structure StartsUp (cfg : Config) : Prop where
  queue : 0 ≤ cfg.audit.queueSize
  flush : 0 < cfg.audit.flushInterval
  batch : 0 ≤ cfg.audit.batchSize
  interval : cfg.updateCheck.enabled = true → 0 < cfg.updateCheck.interval

/-- The values are in range when the configuration is as the primitives need it. -/
theorem startupCalls_inRange_iff {cfg : Config} :
    (∀ call ∈ startupCalls cfg, call.InRange) ↔ StartsUp cfg := by
  have hcalls : (∀ call ∈ startupCalls cfg, call.InRange) ↔
      0 ≤ cfg.audit.queueSize ∧ 0 < cfg.audit.flushInterval ∧ 0 ≤ cfg.audit.batchSize ∧
        (cfg.updateCheck.enabled = true → 0 < cfg.updateCheck.interval) := by
    rw [startupCalls, newWriterCalls, writerRunCalls, runUpdateCheckerCalls]
    cases cfg.updateCheck.enabled <;> simp [PrimitiveCall.InRange]
  rw [hcalls]
  exact ⟨fun ⟨hq, hf, hb, hi⟩ => ⟨hq, hf, hb, hi⟩, fun h => ⟨h.queue, h.flush, h.batch, h.interval⟩⟩

/-- The variables that are read have values in range; that of the update check counts when it is
enabled. -/
structure EnvStartsUp (p : Platform) (env : EnvVars) : Prop where
  queue : ∀ n ∈ readEnv env atoi "IDPFORGE_AUDIT_QUEUE_SIZE", 0 ≤ n
  flush : ∀ d ∈ readEnv env p.parseDuration "IDPFORGE_AUDIT_FLUSH_INTERVAL", 0 < d
  batch : ∀ n ∈ readEnv env atoi "IDPFORGE_AUDIT_BATCH_SIZE", 0 ≤ n
  interval : getEnvBool env "IDPFORGE_UPDATE_CHECK_ENABLED" true = true →
    ∀ d ∈ readEnv env p.parseDuration "IDPFORGE_UPDATE_CHECK_INTERVAL", 0 < d

/-- **Which environments start the server.** The values of an accepted configuration are in range
if and only if those of the variables are that are set and read. -/
theorem startup_ok_iff {p : Platform} {env : EnvVars} {cfg : Config} (h : load p env = .ok cfg) :
    (∀ call ∈ startupCalls cfg, call.InRange) ↔ EnvStartsUp p env := by
  obtain ⟨driver, rfl⟩ := load_eq_ok p env h
  have hqueue : 0 ≤ (readConfig p env driver).audit.queueSize ↔ _ :=
    getEnvWith_iff env (P := (0 ≤ ·)) (by decide : (0 : Int) ≤ 10000)
  have hflush : 0 < (readConfig p env driver).audit.flushInterval ↔ _ :=
    getEnvWith_iff env (P := (0 < ·)) (by decide : (0 : Int) < 2000000000)
  have hbatch : 0 ≤ (readConfig p env driver).audit.batchSize ↔ _ :=
    getEnvWith_iff env (P := (0 ≤ ·)) (by decide : (0 : Int) ≤ 100)
  have hinterval : 0 < (readConfig p env driver).updateCheck.interval ↔ _ :=
    getEnvWith_iff env (P := (0 < ·)) (by decide : (0 : Int) < 24 * hour)
  rw [startupCalls_inRange_iff]
  constructor
  · intro hstarts
    exact ⟨hqueue.mp hstarts.queue, hflush.mp hstarts.flush, hbatch.mp hstarts.batch,
      fun henabled => hinterval.mp (hstarts.interval henabled)⟩
  · intro henv
    exact ⟨hqueue.mpr henv.queue, hflush.mpr henv.flush, hbatch.mpr henv.batch,
      fun henabled => hinterval.mpr (henv.interval henabled)⟩

/-- The variables of an example: the required data source, and one more. -/
def exampleEnvVars (key value : String) : EnvVars := fun k =>
  if k = "IDPFORGE_DB_DSN" then some "postgres://localhost/idpforge"
  else if k = key then some value
  else none

/-- A platform on which the durations of the example are read. -/
def examplePlatform : Platform where
  windows := false
  joinPath := "/".intercalate
  parseDuration := fun s => if s = "0s" then some 0 else if s = "5s" then some 5000000000 else none
  loadLocation := fun _ => .ok ()
  quote := fun s => "\x22" ++ s ++ "\x22"

/-- A flush interval of nothing and a queue of negative size are accepted. -/
theorem accepted_config_out_of_range :
    (∃ cfg, load examplePlatform (exampleEnvVars "IDPFORGE_AUDIT_FLUSH_INTERVAL" "0s") = .ok cfg ∧
      ¬ ∀ call ∈ startupCalls cfg, call.InRange) ∧
    ∃ cfg, load examplePlatform (exampleEnvVars "IDPFORGE_AUDIT_QUEUE_SIZE" "-1") = .ok cfg ∧
      ¬ ∀ call ∈ startupCalls cfg, call.InRange := by
  refine ⟨⟨readConfig examplePlatform _ .postgres, rfl, ?_⟩,
    readConfig examplePlatform _ .postgres, rfl, ?_⟩
  · intro h
    exact absurd (startupCalls_inRange_iff.mp h).flush (by decide)
  · intro h
    exact absurd (startupCalls_inRange_iff.mp h).queue (by decide)

/-- The theorem applied to a flush interval that is in range. -/
theorem startup_ok_iff_example :
    ∃ cfg, load examplePlatform (exampleEnvVars "IDPFORGE_AUDIT_FLUSH_INTERVAL" "5s") = .ok cfg ∧
      ((∀ call ∈ startupCalls cfg, call.InRange) ↔
        EnvStartsUp examplePlatform (exampleEnvVars "IDPFORGE_AUDIT_FLUSH_INTERVAL" "5s")) :=
  ⟨_, rfl, startup_ok_iff rfl⟩

end IdpForge
