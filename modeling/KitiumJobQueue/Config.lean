import KitiumJobQueue.Bull.Options

/-!
# Queue configuration

The part of `QueueConfig` and `DLQConfig` (`types.ts`) that the functions of the project read. Of
the adapters and of the notification handler it only matters here whether they are configured; what
they do is decided by the calls made to them.
-/

namespace KitiumJobQueue

/-- Dead Letter Queue configuration. -/
structure DLQConfig where
  enabled : Bool
  notificationHandler : Bool := false

/-- Job queue configuration. -/
structure QueueConfig where
  name : String
  defaultJobOptions : Option JobOptions := none
  dlq : Option DLQConfig := none
  telemetry : Bool := false
  metrics : Bool := false

/-- `config.dlq?.enabled === true` -/
def QueueConfig.isDlqEnabled (config : QueueConfig) : Bool := config.dlq.any DLQConfig.enabled

/-- `config.dlq?.notificationHandler` is set. -/
def QueueConfig.hasNotificationHandler (config : QueueConfig) : Bool :=
  config.dlq.any DLQConfig.notificationHandler

end KitiumJobQueue
