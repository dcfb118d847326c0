import Mathlib.Data.List.Basic

/-!
# gaveld — signal weights and technique map (`weights.c`, `mitre_map.c`)

The two lookup tables, row by row in the order of the source. Both
lookups are first-match linear scans. The weight table's own technique
column and the map's technique names are read by no modelled function
and are left out.
-/

namespace MiuiserPeruser.Gaveld

/-- `WEIGHT_TABLE`: base weight by signal name. -/
def weightTable : List (String × Nat) :=
  [ -- burned — MIUI and HyperOS Identity & Privacy
   ("HYPEROS_DETECTED", 0), ("EEA_BUILD", 0), ("IMEI_EXPOSED", 35),
   ("FACEBOOK_PARTNER_BAKED", 22), ("APPSFLYER_PREINSTALL", 20), ("PARTNER_BLOATWARE", 10),
   ("DEVICE_SERIAL_EXPOSED", 18), ("GOOGLE_CLIENT_XIAOMI", 12), ("MSA_TELEMETRY_ACTIVE", 22),
   ("MISIGHT_ANALYTICS_ON", 18), ("CLOUD_SYNC_ACTIVE", 12), ("MIUI_OPTIMIZATION_OFF", 10),
   ("MIUI_OPTIMIZATIONS_OFF", 8), ("MIUI_RESTRICTED_MODE", 15), ("POWERKEEPER_ACTIVE", 8),
   ("GAME_TURBO_ACTIVE", 10), ("CLEANER_AGGRESSIVE", 12), ("RAM_EXTENSION_ACTIVE", 8),
   ("DUAL_APPS_ACTIVE", 12), ("MIUI_BOOSTER_RTMODE", 8), ("PROCESS_KILL_AGGRESSIVE", 10),
   ("APP_DOWNGRADE_ACTIVE", 8), ("SMART_GC_AGGRESSIVE", 8), ("MIUI_POLICY_ACTIVE", 18),
   ("MIUI_PROPERTY_CHANGED", 15),
   -- granitord — Security Posture & Boot Integrity
   ("VERIFIED_BOOT_FAIL", 30), ("BOOTLOADER_UNLOCKED", 25), ("ROOT_DETECTED", 35),
   ("MAGISK_DETECTED", 35), ("SU_PRESENT", 20), ("DEBUGGABLE_BUILD", 15),
   ("ENCRYPTION_OFF", 30), ("ADB_ENABLED", 25), ("ADB_TCP_ENABLED", 32),
   ("CHINESE_SUPL_SERVER", 22), ("SELINUX_PERMISSIVE", 30), ("RAM_FAULT_REBOOT", 15),
   ("FORCED_REBOOT_POLICY", 8), ("SECURITY_SCORE_LOW", 28),
   -- leatherheadd — Thermal Truth
   ("THERMAL_HAL_MISMATCH", 18), ("THERMAL_WARN", 12), ("THERMAL_CRITICAL", 22),
   ("CPU_THROTTLING", 15), ("SKIN_TEMP_HIGH", 15), ("BATTERY_TEMP_HIGH", 18),
   ("THERMAL_STATUS_NONZERO", 20),
   -- rocksteadyd — CPU Load & Frequency
   ("CPU_HOG", 18), ("CPU_HOG_CRITICAL", 28), ("CPU_CLUSTER_IMBALANCE", 12),
   ("GOVERNOR_PERFORMANCE", 8), ("ALL_CORES_MAXED", 20),
   -- bebopd — Wakelocks & Power
   ("WAKELOCK_ANOMALY", 20), ("WAKELOCK_FULL_HELD", 25), ("WAKELOCK_DRAIN_HIGH", 20),
   ("DOZE_INTERRUPTED", 15), ("INCALL_WAKELOCK_ORPHAN", 22), ("BATTERY_LEVEL_CRITICAL", 18),
   ("BATTERY_SAVER_OFF_LOW", 10),
   -- rahzerd — Network & Connectivity
   ("EXCESSIVE_CONNECTIONS", 25), ("CONNECTION_SPIKE", 20), ("UNKNOWN_LISTENER", 28),
   ("DNS_ANOMALY", 22), ("CLEARTEXT_EXFIL", 30), ("WIFI_BSSID_CHANGE", 18), ("VPN_ACTIVE", 10),
   ("ROAMING_DATA_ACTIVE", 8), ("DUAL_SIM_ACTIVE", 5), ("NO_DNS_RESOLUTION", 20),
   ("PRIVATE_DNS_INACTIVE", 12),
   -- ratkingd — Process & Memory
   ("ZOMBIE_DETECTED", 18), ("MEM_PRESSURE", 20), ("RAM_CRITICAL", 25), ("SWAP_HIGH", 15),
   ("LMK_KILL_RATE_HIGH", 15), ("BG_APP_LIMIT_HIGH", 8), ("CPU_HOG_PROCESS", 18),
   -- metalheadd — Sensor Registry & Access
   ("SENSOR_ACCESS_ANOMALY", 22), ("SENSOR_FLOOD", 18), ("SENSITIVE_SENSOR_ACTIVE", 20),
   ("SENSOR_CLIENT_SPIKE", 15),
   -- shredderd — Kernel Integrity & Root Persistence
   ("KERNEL_MODULE_UNKNOWN", 35), ("DEBUGFS_MOUNTED", 20), ("ROOT_PROCESS_COUNT_HIGH", 25),
   ("INTEGRITY_SCORE_LOW", 30), ("ROOT_PERSISTENCE", 38), ("ROOTKIT_MODULE", 40),
   ("INTEGRITY_VIOLATION", 45), ("RWX_MEMORY_PAGE", 35), ("REFLECTIVE_CODE", 35),
   ("HIDDEN_PROCESS", 38), ("SUSPICIOUS_PATH", 25), ("UNUSUAL_PARENT", 22),
   -- fugitoidd — Foreground Activity & System Events
   ("ANR_DETECTED", 15), ("CRASH_DETECTED", 18), ("OOM_KILL_EVENT", 20),
   ("APP_SWITCH_ANOMALY", 10), ("WATCHDOG_TRIGGER", 22), ("SERVICE_COUNT_HIGH", 10),
   -- Casey (Hooks  Kernel)
   ("ANON_EXEC_MEM", 40), ("SYS_TABLE_EXPOSED", 40), ("KPTR_LEAK", 30), ("LD_PRELOAD", 30),
   ("MIUI_SCRAPER", 25),
   -- Leo (Orchestrator)
   ("MIUI_MQSAS_ACTIVE", 18), ("MIGARD_ACTIVE", 12), ("PERFSHIELDER_ACTIVE", 8),
   -- Superhero binary
   ("BATTERY_HEALTH_LOW", 20), ("OLD_KERNEL", 15), ("BACKGROUND_RESTRICTED_APPS", 10)]

/-- The base weight of a signal, 0 for a signal that is not in the table. -/
def weightLookup (signal : String) : Nat :=
  ((weightTable.find? fun e => e.1 = signal).map Prod.snd).getD 0

/-- `g_map`: signal type, technique id, tactic. -/
def mitreMap : List (String × String × String) :=
  [("KERNEL_MODULE_UNKNOWN", "T1406", "defense-evasion"),
   ("ROOTKIT_MODULE", "T1406", "defense-evasion"),
   ("ANON_RWX_MEM", "T1631", "defense-evasion"),
   ("INJECTOR_LIB", "T1617", "defense-evasion"),
   ("EXEC_FROM_DATA", "T1540", "persistence"),
   ("MILLET_ACTIVE", "T1631", "defense-evasion"),
   ("SUSPECT_PORT", "T1421", "discovery"),
   ("ADB_TCP_ACTIVE", "T1421", "discovery"),
   ("DNS_ANOMALY", "T1521", "command-and-control"),
   ("CONNECTIVITY_DRIFT", "T1410", "collection"),
   ("UNKNOWN_LISTENER", "T1423", "discovery"),
   ("PRIVATE_DNS_INACTIVE", "T1521", "command-and-control"),
   ("FB_PARTNER_ID", "T1643", "impact"),
   ("PARTNER_TOKEN", "T1643", "impact"),
   ("SNO_TRACKING", "T1643", "impact"),
   ("MIUI_ANALYTICS", "T1643", "impact"),
   ("MIUI_DAEMON", "T1426", "discovery"),
   ("GDPR_OPT_OUT", "T1426", "discovery"),
   ("GUARD_PROVIDER", "T1418", "discovery"),
   ("EXCESSIVE_WAKELOCK", "T1603", "persistence"),
   ("EXCESSIVE_FDS", "T1424", "discovery"),
   ("ZOMBIE_PROCESSES", "T1424", "discovery"),
   ("HIDDEN_GAP", "T1424", "discovery"),
   ("FRIDA_DETECTED", "T1617", "defense-evasion"),
   ("XPOSED_DETECTED", "T1617", "defense-evasion")]

/-- Technique id and tactic of an entry of the map. -/
def mitreLookup (signalType : String) : Option (String × String) :=
  (mitreMap.find? fun e => e.1 = signalType).map Prod.snd

end MiuiserPeruser.Gaveld
